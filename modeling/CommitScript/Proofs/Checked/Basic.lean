import Mathlib
import CommitScript.Algebra.Power
import CommitScript.Bytes.Basic

/-! # Checked computations

Operations that are not made for all that they may be given: places in lists and texts, buffers,
differences of natural numbers, division. Each of them is given here a form that looks at what it
is given and panics when it cannot go on. A program is then written once more with these forms,
and it never panics when it is equal to the program without them.
-/

namespace CommitScript

/-- What ends a program at once. -/
inductive Panic where
  /-- A place behind the end of a list or a text. -/
  | outOfRange
  /-- A place inside a character. -/
  | insideCharacter
  /-- More bytes than a buffer has room for. -/
  | bufferTooSmall
  /-- A natural number less a greater one. -/
  | belowZero
  /-- A quotient, a remainder or a power for the modulus zero. -/
  | byZero
  deriving Repr, DecidableEq

/-- A computation that may panic. -/
abbrev Checked (α : Type) := Except Panic α

/-- A computation that may panic and may also end in a fault of its own. -/
abbrev CheckedTry (ε α : Type) := ExceptT ε (Except Panic) α

/-- Steps that may panic and may also end in a fault, which keeps the state in which it arose. -/
def CheckedRun (ε σ α : Type) := σ → Checked (EStateM.Result ε σ α)

namespace Checked

def sub (a b : Nat) : Checked Nat :=
  if b ≤ a then pure (a - b) else throw .belowZero

def mod (a modulus : Nat) : Checked Nat :=
  if modulus = 0 then throw .byZero else pure (a % modulus)

def div (a divisor : Nat) : Checked Nat :=
  if divisor = 0 then throw .byZero else pure (a / divisor)

def power (modulus base exponent : Nat) : Checked Nat :=
  if modulus = 0 then throw .byZero else pure (Modular.power modulus base exponent)

/-- The item at a place, counted from zero. -/
def item {α : Type} (items : List α) (place : Nat) : Checked α :=
  match items[place]? with
  | some a => pure a
  | none => throw .outOfRange

/-- The text behind a number of bytes, which have to be whole characters. -/
def dropBytes : List Char → Nat → Checked (List Char)
  | text, 0 => pure text
  | [], _ + 1 => throw .outOfRange
  | c :: text, count + 1 =>
      if c.utf8Size ≤ count + 1 then dropBytes text (count + 1 - c.utf8Size)
      else throw .insideCharacter

/-- A buffer of a width that starts with some bytes and holds zeros behind them. -/
def fill (width : Nat) (bytes : Bytes) : Checked Bytes :=
  if bytes.length ≤ width then pure (bytes ++ List.replicate (width - bytes.length) 0)
  else throw .bufferTooSmall

variable {α : Type}

theorem sub_of_le {a b : Nat} (h : b ≤ a) : sub a b = pure (a - b) :=
  if_pos h

theorem mod_of_pos {a modulus : Nat} (h : 0 < modulus) : mod a modulus = pure (a % modulus) :=
  if_neg (Nat.pos_iff_ne_zero.mp h)

theorem div_of_pos {a divisor : Nat} (h : 0 < divisor) : div a divisor = pure (a / divisor) :=
  if_neg (Nat.pos_iff_ne_zero.mp h)

theorem power_of_pos {modulus base exponent : Nat} (h : 0 < modulus) :
    power modulus base exponent = pure (Modular.power modulus base exponent) :=
  if_neg (Nat.pos_iff_ne_zero.mp h)

theorem item_of_eq_some {items : List α} {place : Nat} {a : α} (h : items[place]? = some a) :
    item items place = pure a := by
  rw [item, h]

theorem fill_of_le {width : Nat} {bytes : Bytes} (h : bytes.length ≤ width) :
    fill width bytes = pure (bytes ++ List.replicate (width - bytes.length) 0) :=
  if_pos h

/-- How many bytes a text takes. -/
def textBytes (text : List Char) : Nat :=
  (text.map Char.utf8Size).sum

theorem textBytes_cons (c : Char) (text : List Char) :
    textBytes (c :: text) = c.utf8Size + textBytes text :=
  rfl

theorem textBytes_append (front rest : List Char) :
    textBytes (front ++ rest) = textBytes front + textBytes rest := by
  rw [textBytes, List.map_append, List.sum_append]
  rfl

/-- Between two characters there is always a place to cut. -/
theorem dropBytes_append (front rest : List Char) :
    dropBytes (front ++ rest) (textBytes front) = pure rest := by
  induction front with
  | nil => rw [List.nil_append, textBytes, List.map_nil, List.sum_nil, dropBytes]
  | cons c front ih =>
      obtain ⟨count, size⟩ := Nat.exists_eq_succ_of_ne_zero c.utf8Size_pos.ne'
      have total : textBytes (c :: front) = count + textBytes front + 1 := by
        rw [textBytes_cons, size]
        omega
      have others : count + textBytes front + 1 - c.utf8Size = textBytes front := by omega
      rw [total, List.cons_append, dropBytes, if_pos (by omega), others, ih]

/-- Places where a text can be cut are those between two characters. -/
theorem dropBytes_eq_ok {count : Nat} {text rest : List Char}
    (h : dropBytes text count = pure rest) :
    ∃ front, text = front ++ rest ∧ textBytes front = count := by
  induction text generalizing count with
  | nil =>
      cases count with
      | zero =>
          cases h
          exact ⟨[], rfl, rfl⟩
      | succ count => cases h
  | cons c text ih =>
      cases count with
      | zero =>
          cases h
          exact ⟨[], rfl, rfl⟩
      | succ count =>
          rw [dropBytes] at h
          split at h
          · next fits =>
            obtain ⟨front, rfl, size⟩ := ih h
            exact ⟨c :: front, rfl, by rw [textBytes_cons, size]; omega⟩
          · cases h

end Checked

namespace CheckedTry

variable {ε ε' α β : Type}

/-- A computation that does not panic. -/
def ofExcept (x : Except ε α) : CheckedTry ε α :=
  ExceptT.mk (pure x)

/-- The same computation with its faults changed. -/
def mapError (f : ε → ε') (x : CheckedTry ε α) : CheckedTry ε' α :=
  ExceptT.mk (do return (← x.run).mapError f)

@[simp]
theorem lift_pure (a : α) : (liftM (pure a : Checked α) : CheckedTry ε α) = pure a :=
  rfl

@[simp]
theorem mapError_ofExcept (f : ε → ε') (x : Except ε α) :
    (ofExcept x).mapError f = ofExcept (x.mapError f) :=
  rfl

/-- What comes behind a computation has to be equal only for what the computation can give. -/
theorem ofExcept_bind {x : Except ε α} {f : α → CheckedTry ε β} {g : α → Except ε β}
    (h : ∀ a, x = .ok a → f a = ofExcept (g a)) : ofExcept x >>= f = ofExcept (x >>= g) := by
  cases x with
  | error e => rfl
  | ok a => exact h a rfl

theorem ofExcept_map (f : α → β) (x : Except ε α) : f <$> ofExcept x = ofExcept (x.map f) := by
  cases x <;> rfl

theorem ofExcept_mapM {f : α → CheckedTry ε β} {g : α → Except ε β}
    (h : ∀ a, f a = ofExcept (g a)) (as : List α) : as.mapM f = ofExcept (as.mapM g) := by
  induction as with
  | nil => rfl
  | cons a as ih =>
      rw [List.mapM_cons, List.mapM_cons, h, ih]
      exact ofExcept_bind fun b _ => ofExcept_bind fun bs _ => rfl

end CheckedTry

namespace CheckedRun

variable {ε σ α β : Type}

instance : Monad (CheckedRun ε σ) where
  pure a s := pure (.ok a s)
  bind x f s := do
    match ← x s with
    | .ok a t => f a t
    | .error e t => pure (.error e t)

/-- Steps that do not panic. -/
def ofState (x : EStateM ε σ α) : CheckedRun ε σ α :=
  fun s => pure (x s)

instance : MonadLift (EStateM ε σ) (CheckedRun ε σ) :=
  ⟨ofState⟩

/-- A computation leaves the state alone. -/
instance : MonadLift (CheckedTry ε) (CheckedRun ε σ) :=
  ⟨fun x s => do
    match ← x.run with
    | .ok a => pure (.ok a s)
    | .error e => pure (.error e s)⟩

instance : MonadLift Checked (CheckedRun ε σ) :=
  ⟨fun x s => do return .ok (← x) s⟩

@[simp]
theorem lift_pure_bind (a : α) (f : α → CheckedRun ε σ β) :
    (liftM (pure a : Checked α) : CheckedRun ε σ α) >>= f = f a :=
  rfl

@[simp]
theorem lift_ofExcept (x : Except ε α) :
    (liftM (CheckedTry.ofExcept x) : CheckedRun ε σ α) = ofState (ofExcept x) := by
  funext s
  cases x <;> rfl

/-- What comes behind some steps has to be equal only for what the steps can give. -/
theorem bind_eq {x : CheckedRun ε σ α} {y : EStateM ε σ α} {f : α → CheckedRun ε σ β}
    {g : α → EStateM ε σ β} {s : σ} (first : x s = pure (y s))
    (others : ∀ a t, y s = .ok a t → f a t = pure (g a t)) :
    (x >>= f) s = pure ((y >>= g) s) := by
  change (x s >>= fun | .ok a t => f a t | .error e t => pure (.error e t)) =
    pure (EStateM.bind y g s)
  rw [first, pure_bind, EStateM.bind]
  cases ran : y s with
  | error e t => rfl
  | ok a t => exact others a t ran

theorem ofState_bind {x : EStateM ε σ α} {f : α → CheckedRun ε σ β} {g : α → EStateM ε σ β}
    (h : ∀ a, f a = ofState (g a)) : ofState x >>= f = ofState (x >>= g) :=
  funext fun _ => bind_eq rfl fun a _ _ => congrFun (h a) _

/-- Steps that agree wherever some property holds agree all along, if they keep it. -/
theorem forM_eq {Keeps : σ → Prop} {f : α → CheckedRun ε σ Unit} {g : α → EStateM ε σ Unit}
    (agree : ∀ a s, Keeps s → f a s = pure (g a s))
    (kept : ∀ a s t, Keeps s → g a s = .ok () t → Keeps t) (as : List α) {s : σ} (h : Keeps s) :
    as.forM f s = pure (as.forM g s) := by
  induction as generalizing s with
  | nil => rfl
  | cons a as ih => exact bind_eq (agree a s h) fun _ t ran => ih (kept a s t h ran)

end CheckedRun

end CommitScript

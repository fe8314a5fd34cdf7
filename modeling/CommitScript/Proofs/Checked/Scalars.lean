import CommitScript.Proofs.Checked.Basic
import CommitScript.Proofs.TableLaws
import CommitScript.Challenge.History
import CommitScript.Commitment.Tape
import CommitScript.Run.Opening

/-! # Checked scalars

The operations of a scalar field with every difference, remainder and power checked. Only two of
them ask something of what they are given: what is taken away, and what is negated, has to be
reduced. All others work for any scalars, since the modulus of a field is never zero.
-/

namespace CommitScript

namespace ScalarField

variable (field : ScalarField)

def reduceChecked (n : Nat) : Checked Scalar := do
  return ⟨← Checked.mod n field.modulus⟩

def addChecked (a b : Scalar) : Checked Scalar := do
  return ⟨← Checked.mod (a.value + b.value) field.modulus⟩

def subChecked (a b : Scalar) : Checked Scalar := do
  let difference ← Checked.sub (a.value + field.modulus) b.value
  return ⟨← Checked.mod difference field.modulus⟩

def mulChecked (a b : Scalar) : Checked Scalar := do
  return ⟨← Checked.mod (a.value * b.value) field.modulus⟩

def negChecked (a : Scalar) : Checked Scalar := do
  let difference ← Checked.sub field.modulus a.value
  return ⟨← Checked.mod difference field.modulus⟩

def powChecked (a : Scalar) (exponent : Nat) : Checked Scalar := do
  return ⟨← Checked.power field.modulus a.value exponent⟩

def ofIntChecked (value : Int) : Checked Scalar := do
  let magnitude ← field.reduceChecked value.natAbs
  if value < 0 then field.negChecked magnitude else return magnitude

def inverseChecked (a : Scalar) : CheckedTry AlgebraError Scalar :=
  if a.value = 0 then throw .notInvertible
  else do
    let exponent ← Checked.sub field.modulus 2
    field.powChecked a exponent

def ofWideBytesChecked (bytes : Bytes) : Checked Scalar :=
  field.reduceChecked (Bytes.toNatBig bytes)

@[simp]
theorem reduceChecked_eq (n : Nat) : field.reduceChecked n = pure (field.reduce n) := by
  rw [reduceChecked, Checked.mod_of_pos field.modulus_pos]
  rfl

@[simp]
theorem addChecked_eq (a b : Scalar) : field.addChecked a b = pure (field.add a b) := by
  rw [addChecked, Checked.mod_of_pos field.modulus_pos]
  rfl

/-- What is taken away has to be reduced. -/
theorem subChecked_eq (a : Scalar) {b : Scalar} (h : field.Reduced b) :
    field.subChecked a b = pure (field.sub a b) := by
  have enough : b.value ≤ a.value + field.modulus := Nat.le_add_left_of_le (Nat.le_of_lt h)
  rw [subChecked, Checked.sub_of_le enough, pure_bind, Checked.mod_of_pos field.modulus_pos]
  rfl

@[simp]
theorem mulChecked_eq (a b : Scalar) : field.mulChecked a b = pure (field.mul a b) := by
  rw [mulChecked, Checked.mod_of_pos field.modulus_pos]
  rfl

/-- What is negated has to be reduced. -/
theorem negChecked_eq {a : Scalar} (h : field.Reduced a) :
    field.negChecked a = pure (field.neg a) := by
  rw [negChecked, Checked.sub_of_le (Nat.le_of_lt h), pure_bind,
    Checked.mod_of_pos field.modulus_pos]
  rfl

@[simp]
theorem powChecked_eq (a : Scalar) (exponent : Nat) :
    field.powChecked a exponent = pure (field.pow a exponent) := by
  rw [powChecked, Checked.power_of_pos field.modulus_pos]
  rfl

@[simp]
theorem ofIntChecked_eq (value : Int) : field.ofIntChecked value = pure (field.ofInt value) := by
  rw [ofIntChecked, reduceChecked_eq, pure_bind, ofInt]
  split
  · exact field.negChecked_eq (field.reduced_reduce _)
  · rfl

@[simp]
theorem inverseChecked_eq (a : Scalar) :
    field.inverseChecked a = CheckedTry.ofExcept (field.inverse a) := by
  rw [inverseChecked, inverse]
  split
  · rfl
  · rw [Checked.sub_of_le field.one_lt, CheckedTry.lift_pure, pure_bind, powChecked_eq]
    rfl

@[simp]
theorem ofWideBytesChecked_eq (bytes : Bytes) :
    field.ofWideBytesChecked bytes = pure (field.ofWideBytes bytes) :=
  field.reduceChecked_eq _

end ScalarField

/-- The scalar at a position of a tape. -/
def Tape.scalarChecked (tape : Tape) (position : Nat) (field : ScalarField) : Checked Scalar :=
  field.ofWideBytesChecked (tape.read position field.wideWidth)

@[simp]
theorem Tape.scalarChecked_eq (tape : Tape) (position : Nat) (field : ScalarField) :
    tape.scalarChecked position field = pure (tape.scalar position field) :=
  field.ofWideBytesChecked_eq _

/-- Draws a challenge. -/
def ChallengeHistory.drawChecked (history : ChallengeHistory) (label : String)
    (field : ScalarField) : Checked (Scalar × ChallengeHistory) := do
  let drawn := history.drawBytes label field.wideWidth
  return (← field.ofWideBytesChecked drawn.1, drawn.2)

@[simp]
theorem ChallengeHistory.drawChecked_eq (history : ChallengeHistory) (label : String)
    (field : ScalarField) :
    history.drawChecked label field = pure (history.draw label field) := by
  rw [drawChecked, ScalarField.ofWideBytesChecked_eq]
  rfl

/-- The scalar of a weight. -/
def Weight.resolveChecked (field : ScalarField) : Weight → CheckedTry AlgebraError Scalar
  | integer value => field.ofIntChecked value
  | fraction numerator places => do
      let product := field.modulus * numerator
      let denominator := Nat.pow 10 places
      let raised ← Checked.sub (product + denominator) 1
      let ceiling ← Checked.div raised denominator
      field.reduceChecked ceiling
  | inverse divisor => do
      let reduced ← field.reduceChecked divisor
      field.inverseChecked reduced

/-- A denominator is a power of ten, so it is neither zero nor does it leave the numerator without
    anything to take one from. -/
@[simp]
theorem Weight.resolveChecked_eq (field : ScalarField) (weight : Weight) :
    weight.resolveChecked field = CheckedTry.ofExcept (weight.resolve field) := by
  cases weight with
  | integer value =>
      rw [resolveChecked, ScalarField.ofIntChecked_eq]
      rfl
  | fraction numerator places =>
      have denominator : 0 < Nat.pow 10 places := Nat.pow_pos (by decide)
      have enough : 1 ≤ field.modulus * numerator + Nat.pow 10 places :=
        Nat.le_add_left_of_le denominator
      rw [resolveChecked, Checked.sub_of_le enough, CheckedTry.lift_pure, pure_bind,
        Checked.div_of_pos denominator, CheckedTry.lift_pure, pure_bind,
        ScalarField.reduceChecked_eq]
      rfl
  | inverse divisor =>
      rw [resolveChecked, ScalarField.reduceChecked_eq, CheckedTry.lift_pure, pure_bind,
        ScalarField.inverseChecked_eq]
      rfl

end CommitScript

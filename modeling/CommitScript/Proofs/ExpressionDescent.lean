import CommitScript.Expression.Value
import CommitScript.Proofs.Success

/-! # The descent into an expression

The evaluator reads a part of an expression by reading smaller parts, and so on. One level of this
is written here with the levels below it left open, and the evaluator is the whole of it: a
descent that may go down a limited number of levels gives the evaluator's result as soon as it may
go down five levels for each token and five more. So the descent comes to its end on every list of
tokens.
-/

namespace CommitScript.Scope

open Success

/-- What is read next. Further terms and factors come with the value of what stands before
    them. -/
inductive Call where
  | sum
  | moreTerms (total : Scalar)
  | product
  | moreFactors (total : Scalar)
  | negated
  | power
  | atom
  deriving Repr, DecidableEq

/-- A value and the tokens after those that were read for it, or a fault. -/
abbrev Reading := Except EvaluationError (Scalar × List Token)

/-- A reading that may also end because it may not go down further. -/
abbrev LimitedReading := Except (Option EvaluationError) (Scalar × List Token)

/-- A reading that was not limited. -/
def Reading.unlimited (reading : Reading) : LimitedReading :=
  reading.mapError some

/-- A reading without what is known of the number of tokens. -/
def plain {p : List Token → Prop}
    (read : Except EvaluationError (Scalar × { rest : List Token // p rest })) : Reading :=
  read.map fun (value, rest) => (value, rest.val)

/-- What the evaluator reads. -/
def read (scope : Scope) : Call → List Token → Reading
  | .sum, tokens => plain (scope.sum tokens)
  | .moreTerms total, tokens => plain (scope.sumRest total tokens)
  | .product, tokens => plain (scope.product tokens)
  | .moreFactors total, tokens => plain (scope.productRest total tokens)
  | .negated, tokens => plain (scope.negated tokens)
  | .power, tokens => do
      let (base, rest) ← plain (scope.atom tokens)
      plain (scope.raise base rest)
  | .atom, tokens => plain (scope.atom tokens)

/-- One level of the descent, given what the level below reads. -/
def descend (scope : Scope) (below : Call → List Token → LimitedReading) :
    Call → List Token → LimitedReading
  | .sum, tokens => do
      let (value, rest) ← below .product tokens
      below (.moreTerms value) rest
  | .moreTerms total, .operator .plus :: following => do
      let (term, rest) ← below .product following
      below (.moreTerms (scope.field.add total term)) rest
  | .moreTerms total, .operator .minus :: following => do
      let (term, rest) ← below .product following
      below (.moreTerms (scope.field.sub total term)) rest
  | .moreTerms total, tokens => return (total, tokens)
  | .product, tokens => do
      let (value, rest) ← below .negated tokens
      below (.moreFactors value) rest
  | .moreFactors total, .operator .times :: following => do
      let (factor, rest) ← below .negated following
      below (.moreFactors (scope.field.mul total factor)) rest
  | .moreFactors total, .operator .divide :: following => do
      let (factor, rest) ← below .negated following
      let inverse ← (scope.invert .divisionByZero factor).mapError some
      below (.moreFactors (scope.field.mul total inverse)) rest
  | .moreFactors total, tokens => return (total, tokens)
  | .negated, .operator .minus :: following => do
      let (value, rest) ← below .negated following
      return (scope.field.neg value, rest)
  | .negated, tokens => below .power tokens
  | .power, tokens => do
      let (base, rest) ← below .atom tokens
      (plain (scope.raise base rest)).unlimited
  | .atom, .number value :: rest => return (scope.field.reduce value, rest)
  | .atom, .name name :: rest =>
      match scope.lookup? name with
      | some value => return (value, rest)
      | none => throw (some (.undefined name))
  | .atom, .opening :: inner => do
      match ← below .sum inner with
      | (value, .closing :: rest) => return (value, rest)
      | _ => throw (some (.fault .notClosed))
  | .atom, token :: _ => throw (some (.fault (.strayToken token)))
  | .atom, [] => throw (some (.fault .noValue))

/-- The descent that may go down a number of levels. -/
def readWithin (scope : Scope) : Nat → Call → List Token → LimitedReading
  | 0 => fun _ _ => throw none
  | levels + 1 => scope.descend (scope.readWithin levels)

variable {scope : Scope}

/-- A step that only weakens what is known of the number of tokens changes nothing. -/
theorem plain_bind_same {p p' : List Token → Prop}
    {first : Except EvaluationError (Scalar × { rest : List Token // p rest })}
    {weaken : Scalar × { rest : List Token // p rest } →
      Except EvaluationError (Scalar × { rest : List Token // p' rest })}
    (same : ∀ found, plain (weaken found) = .ok (found.1, found.2.val)) :
    plain (first >>= weaken) = plain first := by
  cases first with
  | error e => rfl
  | ok found => exact same found

theorem unlimited_plain_bind {p p' : List Token → Prop}
    {first : Except EvaluationError (Scalar × { rest : List Token // p rest })}
    {others : Scalar × { rest : List Token // p rest } →
      Except EvaluationError (Scalar × { rest : List Token // p' rest })}
    {below : Scalar × List Token → LimitedReading}
    (same : ∀ found, (plain (others found)).unlimited = below (found.1, found.2.val)) :
    (plain (first >>= others)).unlimited = (plain first).unlimited >>= below := by
  cases first with
  | error e => rfl
  | ok found => exact same found

/-- The evaluator is a level of the descent above itself. -/
theorem read_eq_descend (call : Call) (tokens : List Token) :
    (scope.read call tokens).unlimited =
      scope.descend (fun call tokens => (scope.read call tokens).unlimited) call tokens := by
  cases call with
  | sum =>
      rw [read, sum, descend]
      refine unlimited_plain_bind fun found => congrArg Reading.unlimited ?_
      exact plain_bind_same fun _ => rfl
  | moreTerms total =>
      rw [read, sumRest.eq_def]
      split
      · rw [descend]
        refine unlimited_plain_bind fun found => congrArg Reading.unlimited ?_
        exact plain_bind_same fun _ => rfl
      · rw [descend]
        refine unlimited_plain_bind fun found => congrArg Reading.unlimited ?_
        exact plain_bind_same fun _ => rfl
      · rw [descend]
        · rfl
        all_goals assumption
  | product =>
      rw [read, product, descend]
      refine unlimited_plain_bind fun found => congrArg Reading.unlimited ?_
      exact plain_bind_same fun _ => rfl
  | moreFactors total =>
      rw [read, productRest.eq_def]
      split
      · rw [descend]
        refine unlimited_plain_bind fun found => congrArg Reading.unlimited ?_
        exact plain_bind_same fun _ => rfl
      · rw [descend]
        refine unlimited_plain_bind fun found => ?_
        dsimp only
        cases scope.invert .divisionByZero found.1 with
        | error e => rfl
        | ok inverse => exact congrArg Reading.unlimited (plain_bind_same fun _ => rfl)
      · rw [descend]
        · rfl
        all_goals assumption
  | negated =>
      rw [read, negated.eq_def]
      split
      · rw [descend]
        exact unlimited_plain_bind fun _ => rfl
      · rw [descend, read]
        · refine congrArg Reading.unlimited ?_
          cases scope.atom tokens with
          | error e => rfl
          | ok found =>
              obtain ⟨base, rest, shorter⟩ := found
              change plain (scope.raise base rest >>= _) = plain (scope.raise base rest)
              exact plain_bind_same fun _ => rfl
        · assumption
  | power =>
      rw [read, descend, read]
      cases plain (scope.atom tokens) <;> rfl
  | atom =>
      rw [read, atom.eq_def]
      split
      · rfl
      · next name rest =>
        rw [descend]
        cases scope.lookup? name <;> rfl
      · rw [descend]
        refine unlimited_plain_bind fun found => ?_
        obtain ⟨value, rest, shorter⟩ := found
        cases rest with
        | nil => rfl
        | cons token rest => cases token <;> rfl
      · rw [descend]
        · rfl
        all_goals assumption
      · rfl

/-- How many tokens are read at least. -/
def Call.least : Call → Nat
  | moreTerms _ => 0
  | moreFactors _ => 0
  | _ => 1

/-- How far down a part can ask for another one without reading a token. -/
def Call.rank : Call → Nat
  | sum => 4
  | product => 3
  | negated => 2
  | power => 1
  | _ => 0

theorem of_plain {p : List Token → Prop} {value : Scalar} {rest : List Token}
    {read : Except EvaluationError (Scalar × { rest : List Token // p rest })}
    (h : plain read = .ok (value, rest)) : p rest := by
  obtain ⟨found, -, same⟩ := except_map_eq_ok.mp h
  cases same
  exact found.2.2

theorem length_of_read {call : Call} {tokens rest : List Token} {value : Scalar}
    (h : scope.read call tokens = .ok (value, rest)) :
    rest.length + call.least ≤ tokens.length := by
  cases call with
  | power =>
      obtain ⟨⟨base, rest'⟩, atom, raised⟩ := except_bind_eq_ok.mp h
      have shorter := of_plain atom
      have same := of_plain raised
      exact Nat.lt_of_le_of_lt same shorter
  | _ => exact of_plain h

theorem bind_congr {ε α β : Type} {first first' : Except ε α} {others others' : α → Except ε β}
    (same : first = first') (h : ∀ a, first' = .ok a → others a = others' a) :
    first >>= others = first' >>= others' := by
  subst same
  cases first with
  | error e => rfl
  | ok a => exact h a rfl

/-- How many levels a part goes down at most. -/
def Call.depth (call : Call) (tokens : List Token) : Nat :=
  5 * tokens.length + call.rank

theorem Call.rank_le (call : Call) : call.rank ≤ 4 := by
  cases call <;> simp [rank]

/-- Where fewer tokens are left, any part is less deep. -/
theorem Call.depth_lt {call call' : Call} {tokens tokens' : List Token}
    (h : tokens'.length < tokens.length) : call'.depth tokens' < call.depth tokens := by
  have := call'.rank_le
  unfold Call.depth
  omega

/-- A level reads the same above descents that read everything less deep the same. -/
theorem descend_congr {below below' : Call → List Token → LimitedReading} {call : Call}
    {tokens : List Token}
    (same : ∀ {call' tokens'}, call'.depth tokens' < call.depth tokens →
      below call' tokens' = below' call' tokens')
    (shorter : ∀ {call tokens value rest}, below' call tokens = .ok (value, rest) →
      rest.length + call.least ≤ tokens.length) :
    scope.descend below call tokens = scope.descend below' call tokens := by
  unfold descend
  split
  · refine bind_congr (same (Nat.add_lt_add_left (by decide) _)) fun found read => ?_
    exact same (Call.depth_lt (shorter read))
  · refine bind_congr (same (Call.depth_lt (Nat.lt_succ_self _))) fun found read => ?_
    exact same (Call.depth_lt (Nat.lt_succ_of_lt (shorter read)))
  · refine bind_congr (same (Call.depth_lt (Nat.lt_succ_self _))) fun found read => ?_
    exact same (Call.depth_lt (Nat.lt_succ_of_lt (shorter read)))
  · rfl
  · refine bind_congr (same (Nat.add_lt_add_left (by decide) _)) fun found read => ?_
    exact same (Call.depth_lt (shorter read))
  · refine bind_congr (same (Call.depth_lt (Nat.lt_succ_self _))) fun found read => ?_
    exact same (Call.depth_lt (Nat.lt_succ_of_lt (shorter read)))
  · refine bind_congr (same (Call.depth_lt (Nat.lt_succ_self _))) fun found read => ?_
    refine bind_congr rfl fun inverse _ => ?_
    exact same (Call.depth_lt (Nat.lt_succ_of_lt (shorter read)))
  · rfl
  · exact bind_congr (same (Call.depth_lt (Nat.lt_succ_self _))) fun _ _ => rfl
  · exact same (Nat.add_lt_add_left (by decide) _)
  · exact bind_congr (same (Nat.add_lt_add_left (by decide) _)) fun _ _ => rfl
  · rfl
  · rfl
  · exact bind_congr (same (Call.depth_lt (Nat.lt_succ_self _))) fun _ _ => rfl
  · rfl
  · rfl

/-- A descent that may go down far enough reads what the evaluator reads. -/
theorem readWithin_eq {levels : Nat} {call : Call} {tokens : List Token}
    (enough : call.depth tokens < levels) :
    scope.readWithin levels call tokens = (scope.read call tokens).unlimited := by
  induction levels generalizing call tokens with
  | zero => omega
  | succ levels ih =>
      rw [readWithin, read_eq_descend]
      apply descend_congr
      · intro call' tokens' less
        exact ih (Nat.lt_of_lt_of_le less (Nat.le_of_lt_succ enough))
      · intro call' tokens' value rest found
        exact length_of_read (mapError_eq_ok.mp found)

end CommitScript.Scope

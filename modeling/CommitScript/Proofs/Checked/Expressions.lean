import CommitScript.Proofs.Checked.Scalars
import CommitScript.Proofs.ReducedValues

/-! # Checked values of expressions

The evaluator with every partial operation of the field checked. A difference and a negative
take something away, so the main statement is about scopes in which every name stands for a
reduced scalar; then every value on the way is reduced as well.
-/

namespace CommitScript.Scope

variable (scope : Scope)

/-- The inverse of a value, with a fault for zero. -/
def invertChecked (fault : ExpressionFault) (value : Scalar) : CheckedTry EvaluationError Scalar :=
  (scope.field.inverseChecked value).mapError fun _ => .fault fault

/-- Reads what may follow an atom as its exponent, and applies it. -/
def raiseChecked (base : Scalar) (tokens : List Token) :
    CheckedTry EvaluationError (Scalar × { rest : List Token // rest.length ≤ tokens.length }) :=
  match tokens with
  | .operator .power :: .operator .minus :: .number exponent :: rest => do
      let inverse ← scope.invertChecked .zeroToNegativePower base
      let value ← scope.field.powChecked inverse exponent
      return (value, ⟨rest, Nat.le_add_right rest.length 3⟩)
  | .operator .power :: .operator .minus :: token :: _ => throw (.fault (.badExponent token))
  | .operator .power :: .operator .minus :: [] => throw (.fault .noExponent)
  | .operator .power :: .number exponent :: rest => do
      let value ← scope.field.powChecked base exponent
      return (value, ⟨rest, Nat.le_add_right rest.length 2⟩)
  | .operator .power :: token :: _ => throw (.fault (.badExponent token))
  | .operator .power :: [] => throw (.fault .noExponent)
  | tokens => return (base, ⟨tokens, Nat.le_add_right tokens.length 0⟩)

mutual

def sumChecked (tokens : List Token) : CheckedTry EvaluationError (Read tokens) := do
  let (value, ⟨rest, h⟩) ← productChecked tokens
  let (value, ⟨rest, h'⟩) ← sumRestChecked value rest
  return (value, ⟨rest, Nat.lt_of_le_of_lt h' h⟩)
termination_by (tokens.length, 4)

/-- Reads the further terms of a sum. -/
def sumRestChecked (value : Scalar) (tokens : List Token) :
    CheckedTry EvaluationError (Scalar × { rest : List Token // rest.length ≤ tokens.length }) :=
  match tokens with
  | .operator .plus :: following => do
      let (term, ⟨rest, h⟩) ← productChecked following
      let total ← scope.field.addChecked value term
      let (value, ⟨rest, h'⟩) ← sumRestChecked total rest
      return (value, ⟨rest, by simp only [List.length_cons]; omega⟩)
  | .operator .minus :: following => do
      let (term, ⟨rest, h⟩) ← productChecked following
      let total ← scope.field.subChecked value term
      let (value, ⟨rest, h'⟩) ← sumRestChecked total rest
      return (value, ⟨rest, by simp only [List.length_cons]; omega⟩)
  | tokens => return (value, ⟨tokens, Nat.le_refl _⟩)
termination_by (tokens.length, 4)

def productChecked (tokens : List Token) : CheckedTry EvaluationError (Read tokens) := do
  let (value, ⟨rest, h⟩) ← negatedChecked tokens
  let (value, ⟨rest, h'⟩) ← productRestChecked value rest
  return (value, ⟨rest, Nat.lt_of_le_of_lt h' h⟩)
termination_by (tokens.length, 3)

/-- Reads the further factors of a product. -/
def productRestChecked (value : Scalar) (tokens : List Token) :
    CheckedTry EvaluationError (Scalar × { rest : List Token // rest.length ≤ tokens.length }) :=
  match tokens with
  | .operator .times :: following => do
      let (factor, ⟨rest, h⟩) ← negatedChecked following
      let total ← scope.field.mulChecked value factor
      let (value, ⟨rest, h'⟩) ← productRestChecked total rest
      return (value, ⟨rest, by simp only [List.length_cons]; omega⟩)
  | .operator .divide :: following => do
      let (factor, ⟨rest, h⟩) ← negatedChecked following
      let inverse ← scope.invertChecked .divisionByZero factor
      let total ← scope.field.mulChecked value inverse
      let (value, ⟨rest, h'⟩) ← productRestChecked total rest
      return (value, ⟨rest, by simp only [List.length_cons]; omega⟩)
  | tokens => return (value, ⟨tokens, Nat.le_refl _⟩)
termination_by (tokens.length, 3)

/-- Reads a power behind any number of minus signs. -/
def negatedChecked (tokens : List Token) : CheckedTry EvaluationError (Read tokens) :=
  match tokens with
  | .operator .minus :: following => do
      let (value, ⟨rest, h⟩) ← negatedChecked following
      let negative ← scope.field.negChecked value
      return (negative, ⟨rest, by simp only [List.length_cons]; omega⟩)
  | tokens => do
      let (base, ⟨rest, h⟩) ← atomChecked tokens
      let (value, ⟨rest, h'⟩) ← scope.raiseChecked base rest
      return (value, ⟨rest, Nat.lt_of_le_of_lt h' h⟩)
termination_by (tokens.length, 2)

/-- Reads a number, a name or a sum in brackets. -/
def atomChecked (tokens : List Token) : CheckedTry EvaluationError (Read tokens) :=
  match tokens with
  | .number value :: rest => do
      let value ← scope.field.reduceChecked value
      return (value, ⟨rest, by simp⟩)
  | .name name :: rest =>
      match scope.lookup? name with
      | some value => return (value, ⟨rest, by simp⟩)
      | none => throw (.undefined name)
  | .opening :: inner => do
      match ← sumChecked inner with
      | (value, ⟨.closing :: rest, h⟩) =>
          return (value, ⟨rest, by simp only [List.length_cons] at h ⊢; omega⟩)
      | _ => throw (.fault .notClosed)
  | token :: _ => throw (.fault (.strayToken token))
  | [] => throw (.fault .noValue)
termination_by (tokens.length, 1)

end

/-- The value of an expression. -/
def valueChecked (text : String) : CheckedTry EvaluationError Scalar :=
  match Token.ofChars text.toList with
  | .error c => throw (.fault (.strayCharacter c))
  | .ok tokens => do
      match ← scope.sumChecked tokens with
      | (value, ⟨[], _⟩) => return value
      | (_, ⟨token :: _, _⟩) => throw (.fault (.strayToken token))

variable {scope}

theorem invertChecked_eq (fault : ExpressionFault) (value : Scalar) :
    scope.invertChecked fault value = CheckedTry.ofExcept (scope.invert fault value) := by
  rw [invertChecked, ScalarField.inverseChecked_eq, CheckedTry.mapError_ofExcept, invert]
  cases scope.field.inverse value <;> rfl

theorem raiseChecked_eq (base : Scalar) (tokens : List Token) :
    scope.raiseChecked base tokens = CheckedTry.ofExcept (scope.raise base tokens) := by
  unfold raise
  split
  · rw [raiseChecked, invertChecked_eq]
    refine CheckedTry.ofExcept_bind fun inverse _ => ?_
    rw [ScalarField.powChecked_eq]
    rfl
  · rw [raiseChecked]
    · rfl
    · assumption
  · rfl
  · rw [raiseChecked, ScalarField.powChecked_eq]
    rfl
  · rw [raiseChecked]
    · rfl
    all_goals assumption
  · rfl
  · rw [raiseChecked]
    · rfl
    all_goals assumption

mutual

theorem sumChecked_eq (closed : scope.Reduced) (tokens : List Token) :
    scope.sumChecked tokens = CheckedTry.ofExcept (scope.sum tokens) := by
  rw [sumChecked, sum, productChecked_eq closed]
  refine CheckedTry.ofExcept_bind ?_
  rintro ⟨value, rest, shorter⟩ -
  dsimp only
  rw [sumRestChecked_eq closed]
  exact CheckedTry.ofExcept_bind fun _ _ => rfl
termination_by (tokens.length, 4)

theorem sumRestChecked_eq (closed : scope.Reduced) (value : Scalar) (tokens : List Token) :
    scope.sumRestChecked value tokens = CheckedTry.ofExcept (scope.sumRest value tokens) := by
  rw [sumRest.eq_def]
  split
  · next following =>
    rw [sumRestChecked, productChecked_eq closed]
    refine CheckedTry.ofExcept_bind ?_
    rintro ⟨term, rest, shorter⟩ -
    dsimp only
    rw [ScalarField.addChecked_eq, CheckedTry.lift_pure, pure_bind, sumRestChecked_eq closed]
    exact CheckedTry.ofExcept_bind fun _ _ => rfl
  · next following =>
    rw [sumRestChecked, productChecked_eq closed]
    refine CheckedTry.ofExcept_bind ?_
    rintro ⟨term, rest, shorter⟩ read
    dsimp only
    rw [scope.field.subChecked_eq value (reduced_product closed read), CheckedTry.lift_pure,
      pure_bind, sumRestChecked_eq closed]
    exact CheckedTry.ofExcept_bind fun _ _ => rfl
  · rw [sumRestChecked]
    · rfl
    all_goals assumption
termination_by (tokens.length, 4)
decreasing_by all_goals subst_vars; simp only [List.length_cons]; omega

theorem productChecked_eq (closed : scope.Reduced) (tokens : List Token) :
    scope.productChecked tokens = CheckedTry.ofExcept (scope.product tokens) := by
  rw [productChecked, product, negatedChecked_eq closed]
  refine CheckedTry.ofExcept_bind ?_
  rintro ⟨value, rest, shorter⟩ -
  dsimp only
  rw [productRestChecked_eq closed]
  exact CheckedTry.ofExcept_bind fun _ _ => rfl
termination_by (tokens.length, 3)

theorem productRestChecked_eq (closed : scope.Reduced) (value : Scalar) (tokens : List Token) :
    scope.productRestChecked value tokens =
      CheckedTry.ofExcept (scope.productRest value tokens) := by
  rw [productRest.eq_def]
  split
  · next following =>
    rw [productRestChecked, negatedChecked_eq closed]
    refine CheckedTry.ofExcept_bind ?_
    rintro ⟨factor, rest, shorter⟩ -
    dsimp only
    rw [ScalarField.mulChecked_eq, CheckedTry.lift_pure, pure_bind, productRestChecked_eq closed]
    exact CheckedTry.ofExcept_bind fun _ _ => rfl
  · next following =>
    rw [productRestChecked, negatedChecked_eq closed]
    refine CheckedTry.ofExcept_bind ?_
    rintro ⟨factor, rest, shorter⟩ -
    dsimp only
    rw [invertChecked_eq]
    refine CheckedTry.ofExcept_bind fun inverse _ => ?_
    rw [ScalarField.mulChecked_eq, CheckedTry.lift_pure, pure_bind, productRestChecked_eq closed]
    exact CheckedTry.ofExcept_bind fun _ _ => rfl
  · rw [productRestChecked]
    · rfl
    all_goals assumption
termination_by (tokens.length, 3)
decreasing_by all_goals subst_vars; simp only [List.length_cons]; omega

theorem negatedChecked_eq (closed : scope.Reduced) (tokens : List Token) :
    scope.negatedChecked tokens = CheckedTry.ofExcept (scope.negated tokens) := by
  rw [negated.eq_def]
  split
  · next following =>
    rw [negatedChecked, negatedChecked_eq closed]
    refine CheckedTry.ofExcept_bind ?_
    rintro ⟨value, rest, shorter⟩ read
    dsimp only
    rw [scope.field.negChecked_eq (reduced_negated closed read)]
    rfl
  · rw [negatedChecked, atomChecked_eq closed]
    · refine CheckedTry.ofExcept_bind ?_
      rintro ⟨base, rest, shorter⟩ -
      dsimp only
      rw [raiseChecked_eq]
      exact CheckedTry.ofExcept_bind fun _ _ => rfl
    · assumption
termination_by (tokens.length, 2)

theorem atomChecked_eq (closed : scope.Reduced) (tokens : List Token) :
    scope.atomChecked tokens = CheckedTry.ofExcept (scope.atom tokens) := by
  rw [atom.eq_def]
  split
  · rw [atomChecked, ScalarField.reduceChecked_eq]
    rfl
  · next name rest =>
    rw [atomChecked]
    cases scope.lookup? name <;> rfl
  · next inner =>
    rw [atomChecked, sumChecked_eq closed]
    refine CheckedTry.ofExcept_bind ?_
    rintro ⟨value, rest, shorter⟩ -
    cases rest with
    | nil => rfl
    | cons token rest => cases token <;> rfl
  · rw [atomChecked]
    · rfl
    all_goals assumption
  · rw [atomChecked]
    rfl
termination_by (tokens.length, 1)

end

theorem valueChecked_eq (closed : scope.Reduced) (text : String) :
    scope.valueChecked text = CheckedTry.ofExcept (scope.value text) := by
  unfold valueChecked value
  cases Token.ofChars text.toList with
  | error c => rfl
  | ok tokens =>
      simp only [sumChecked_eq closed]
      refine CheckedTry.ofExcept_bind ?_
      rintro ⟨value, rest, shorter⟩ -
      cases rest <;> rfl

end CommitScript.Scope

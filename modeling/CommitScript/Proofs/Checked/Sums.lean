import CommitScript.Proofs.Checked.Expressions
import CommitScript.Proofs.Checked.Groups
import CommitScript.Proofs.ReducedOpenings

/-! # Checked sums

Weighted sums of openings and of commitments with every partial operation checked, and the value
of an expression over openings. The weights of a sum are resolved first; then each term is looked
up, multiplied and added before the next one is looked up.
-/

namespace CommitScript

open Success

section Sums

variable {Value Total : Type} (field : ScalarField) (table : Table Value)

def resolveWeightsChecked (terms : List (Weight × String)) :
    CheckedTry RunError (List Scalar) :=
  terms.mapM fun term => (term.1.resolveChecked field).mapError .algebra

/-- Looks up a term whose weight has been resolved, and adds it to a total. -/
def addTermChecked (add : Total → Scalar → Value → Checked Total) (total : Total)
    (term : Scalar × Weight × String) : CheckedTry RunError Total := do
  let value ← CheckedTry.ofExcept (table.find term.2.2)
  add total term.1 value

/-- The total of the terms of a sum, for a way to add a term to it. -/
def combineChecked (add : Total → Scalar → Value → Checked Total) (nothing : Total)
    (terms : List (Weight × String)) : CheckedTry RunError Total := do
  let weights ← resolveWeightsChecked field terms
  (weights.zip terms).foldlM (addTermChecked table add) nothing

variable {field table}

theorem resolveWeightsChecked_eq (terms : List (Weight × String)) :
    resolveWeightsChecked field terms = CheckedTry.ofExcept
      (terms.mapM fun term => (term.1.resolve field).mapError RunError.algebra) :=
  CheckedTry.ofExcept_mapM
    (fun term => by rw [Weight.resolveChecked_eq, CheckedTry.mapError_ofExcept]) terms

variable {add : Total → Scalar → Value → Checked Total} {plus : Total → Scalar → Value → Total}
  (adds : ∀ total factor value, add total factor value = pure (plus total factor value))
include adds

/-- Looking the terms up on the way gives what looking all of them up at first gives. -/
theorem foldlM_addTermChecked {weights : List Scalar} {terms : List (Weight × String)}
    (lengths : weights.length = terms.length) (total : Total) :
    (weights.zip terms).foldlM (addTermChecked table add) total =
      CheckedTry.ofExcept ((terms.mapM fun term => table.find term.2).map fun values =>
        (weights.zip values).foldl (fun total pair => plus total pair.1 pair.2) total) := by
  induction terms generalizing weights total with
  | nil =>
      rw [List.length_eq_zero_iff.mp lengths]
      rfl
  | cons term terms ih =>
      obtain ⟨weight, weights, rfl⟩ := List.exists_cons_of_length_eq_add_one lengths
      rw [List.zip_cons_cons, List.foldlM_cons, addTermChecked, List.mapM_cons]
      cases table.find term.2 with
      | error fault => rfl
      | ok value =>
          change (add total weight value : CheckedTry RunError Total) >>= _ = _
          rw [adds, CheckedTry.lift_pure, pure_bind, ih (Nat.succ.inj lengths)]
          cases terms.mapM fun term => table.find term.2 <;> rfl

theorem combineChecked_eq (nothing : Total) (terms : List (Weight × String)) :
    combineChecked field table add nothing terms =
      CheckedTry.ofExcept ((resolveTerms field table terms).map fun pairs =>
        pairs.foldl (fun total pair => plus total pair.1 pair.2) nothing) := by
  rw [combineChecked, resolveWeightsChecked_eq, resolveTerms]
  cases resolved : terms.mapM fun term => (term.1.resolve field).mapError RunError.algebra with
  | error fault => rfl
  | ok weights =>
      have lengths : weights.length = terms.length := (mapM_eq_ok.mp resolved).length_eq.symm
      change (weights.zip terms).foldlM (addTermChecked table add) nothing = _
      rw [foldlM_addTermChecked adds lengths]
      cases terms.mapM fun term => table.find term.2 <;> rfl

end Sums

/-- A total of openings with a multiple of another one added. -/
def Opening.addChecked (field : ScalarField) (total : Opening) (factor : Scalar)
    (opening : Opening) : Checked Opening := do
  let secret ← field.addChecked total.secret (← field.mulChecked factor opening.secret)
  let blinding ← field.addChecked total.blinding (← field.mulChecked factor opening.blinding)
  return { secret, blinding }

/-- A total of commitments with a multiple of another one added. -/
def CheckedOps.addScaled {Element : Type} (ops : CheckedOps Element) (total : Element)
    (factor : Scalar) (commitment : Element) : Checked Element := do
  ops.add total (← ops.scale factor commitment)

def combineOpeningsChecked (field : ScalarField) (table : Table Opening)
    (terms : List (Weight × String)) : CheckedTry RunError Opening :=
  combineChecked field table (Opening.addChecked field) ⟨field.zero, field.zero⟩ terms

def combineCommitmentsChecked {Element : Type} (ops : CheckedOps Element)
    (key : CommitmentKey Element) (table : Table Element) (terms : List (Weight × String)) :
    CheckedTry RunError Element :=
  combineChecked key.field table ops.addScaled key.group.identity terms

/-- The value of an expression over the secrets of a table. -/
def evaluateChecked (field : ScalarField) (table : Table Opening) (text : String) :
    CheckedTry RunError Scalar :=
  let scope : Scope := { field, lookup? := fun name => (table.get? name).map Opening.secret }
  (scope.valueChecked text).mapError (EvaluationError.toRunError text)

theorem combineOpeningsChecked_eq (field : ScalarField) (table : Table Opening)
    (terms : List (Weight × String)) :
    combineOpeningsChecked field table terms =
      CheckedTry.ofExcept (combineOpenings field table terms) := by
  have adds (total : Opening) (factor : Scalar) (opening : Opening) :
      total.addChecked field factor opening =
        pure { secret := field.add total.secret (field.mul factor opening.secret)
               blinding := field.add total.blinding (field.mul factor opening.blinding) } := by
    simp only [Opening.addChecked, ScalarField.mulChecked_eq, ScalarField.addChecked_eq, pure_bind]
  exact combineChecked_eq adds _ terms

theorem CheckedOps.Agrees.combineCommitments {Element : Type} {ops : CheckedOps Element}
    {key : CommitmentKey Element} (agrees : ops.Agrees key.group) (table : Table Element)
    (terms : List (Weight × String)) :
    combineCommitmentsChecked ops key table terms =
      CheckedTry.ofExcept (CommitScript.combineCommitments key table terms) := by
  have adds (total : Element) (factor : Scalar) (commitment : Element) :
      ops.addScaled total factor commitment =
        pure (key.group.add total (key.scale factor commitment)) := by
    rw [addScaled, agrees.scale, pure_bind, agrees.add]
  exact combineChecked_eq adds _ terms

/-- An expression is evaluated without a panic as long as every opening is reduced. -/
theorem evaluateChecked_eq {field : ScalarField} {table : Table Opening}
    (reduced : table.All (Opening.Reduced field)) (text : String) :
    evaluateChecked field table text = CheckedTry.ofExcept (evaluate field table text) := by
  rw [evaluateChecked, Scope.valueChecked_eq (scope_reduced reduced), CheckedTry.mapError_ofExcept]
  rfl

end CommitScript

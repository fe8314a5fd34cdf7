import CommitScript.Commitment.Key
import CommitScript.Run.Table
import CommitScript.Script.Weight

/-! # Openings and weighted sums

What the prover knows of a commitment, and the sums that both sides form: the prover of
openings, the verifier of commitments. Commitments are linear, so both sums belong together.
-/

namespace CommitScript

variable {Element : Type}

/-- The secret of a commitment with its blinding. -/
structure Opening where
  secret : Scalar
  blinding : Scalar
  deriving Repr, DecidableEq

/-- The commitment that an opening opens. -/
def Opening.commitment (key : CommitmentKey Element) (opening : Opening) : Element :=
  key.commit opening.secret opening.blinding

/-- The scalar of a weight. A fraction is that part of the modulus, rounded up. -/
def Weight.resolve (field : ScalarField) : Weight → Except AlgebraError Scalar
  | integer value => .ok (field.ofInt value)
  | fraction numerator places =>
      let denominator := Nat.pow 10 places
      .ok (field.reduce ((field.modulus * numerator + denominator - 1) / denominator))
  | inverse divisor => field.inverse (field.reduce divisor)

/-- The factors of a sum with the values they multiply. All weights are resolved before any
    name is looked up. -/
def resolveTerms {Value : Type} (field : ScalarField) (table : Table Value)
    (terms : List (Weight × String)) : Except RunError (List (Scalar × Value)) := do
  let factors ← terms.mapM fun term => (term.1.resolve field).mapError .algebra
  let values ← terms.mapM fun term => table.find term.2
  return factors.zip values

def sumOpenings (field : ScalarField) (terms : List (Scalar × Opening)) : Opening :=
  terms.foldl
    (fun total term =>
      { secret := field.add total.secret (field.mul term.1 term.2.secret)
        blinding := field.add total.blinding (field.mul term.1 term.2.blinding) })
    { secret := field.zero, blinding := field.zero }

def CommitmentKey.sumCommitments (key : CommitmentKey Element) (terms : List (Scalar × Element)) :
    Element :=
  terms.foldl (fun total term => key.group.add total (key.scale term.1 term.2)) key.group.identity

/-- The weighted sum of openings that a command asks for. -/
def combineOpenings (field : ScalarField) (table : Table Opening)
    (terms : List (Weight × String)) : Except RunError Opening :=
  (resolveTerms field table terms).map (sumOpenings field)

/-- The weighted sum of commitments that a command asks for. -/
def combineCommitments (key : CommitmentKey Element) (table : Table Element)
    (terms : List (Weight × String)) : Except RunError Element :=
  (resolveTerms key.field table terms).map key.sumCommitments

/-- The value of an expression over the secrets of a table. -/
def evaluate (field : ScalarField) (table : Table Opening) (text : String) :
    Except RunError Scalar :=
  let scope : Scope := { field, lookup? := fun name => (table.get? name).map Opening.secret }
  (scope.value text).mapError (EvaluationError.toRunError text)

end CommitScript

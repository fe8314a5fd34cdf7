import CommitScript.Proof.Same
import CommitScript.Proof.Square
import CommitScript.Proof.Value

/-! # Proofs and claims

A proof of any kind, what it can be checked against, and its fields. Each kind has a fixed
number of fields, and a proof is only ever checked against a claim of its own kind.
-/

namespace CommitScript

variable {Element : Type}

/-- What a proof is about, as a verifier sees it. -/
inductive Claim (Element : Type) where
  /-- The commitment hides the value. -/
  | value (commitment : Element) (value : Scalar)
  /-- Both commitments hide the same secret. -/
  | same (left right : Element)
  /-- The second commitment hides the square of what the first one hides. -/
  | square (source squared : Element)
  deriving Repr, DecidableEq

/-- The relation of a claim. -/
def Claim.kind : Claim Element → ProofKind
  | value _ _ => .value
  | same _ _ => .same
  | square _ _ => .square

inductive Proof (Element : Type) where
  | value (proof : ValueProof Element)
  | same (proof : SameProof)
  | square (proof : SquareProof Element)
  deriving Repr, DecidableEq

namespace Proof

def kind : Proof Element → ProofKind
  | value _ => .value
  | same _ => .same
  | square _ => .square

def toFields (key : CommitmentKey Element) : Proof Element → List String
  | value proof => ValueProof.toFields key proof
  | same proof => SameProof.toFields key proof
  | square proof => SquareProof.toFields key proof

/-- Reads the fields of a proof of a kind. The number of fields is looked at before the
    fields, which are then read from left to right. -/
def ofFields (key : CommitmentKey Element) (kind : ProofKind) (fields : List String) :
    Except ProofError (Proof Element) :=
  match kind with
  | .value => (ValueProof.ofFields key fields).map value
  | .same => (SameProof.ofFields key fields).map same
  | .square => (SquareProof.ofFields key fields).map square

/-- Checks a proof against a claim. A claim of another kind is a fault and leaves the history
    alone. -/
def verify [DecidableEq Element] (key : CommitmentKey Element) (history : ChallengeHistory) :
    Claim Element → Proof Element → Except ProofError (Bool × ChallengeHistory)
  | .value commitment v, value proof => .ok (ValueProof.verify key history commitment v proof)
  | .same left right, same proof => .ok (SameProof.verify key history left right proof)
  | .square source squared, square proof =>
      .ok (SquareProof.verify key history source squared proof)
  | claim, proof => .error (.mismatch claim.kind proof.kind)

end Proof

end CommitScript

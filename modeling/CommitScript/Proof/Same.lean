import CommitScript.Commitment.Key
import CommitScript.Proof.Kind

/-! # Proofs of a shared secret

Two commitments hide the same secret exactly when their difference is a multiple of the
blinding generator. The proof states the multiple, the difference of the two blindings.
-/

namespace CommitScript

variable {Element : Type}

/-- A proof that two commitments hide the same secret. -/
structure SameProof where
  /-- The left blinding less the right one. -/
  difference : Scalar
  deriving Repr, DecidableEq

namespace SameProof

/-- The history after the statement and the proof. -/
def statement (key : CommitmentKey Element) (history : ChallengeHistory) (left right : Element)
    (proof : SameProof) : ChallengeHistory :=
  history
    |>.message "protocol" (Bytes.ofString ProofKind.same.name)
    |>.message "C1" (key.group.encode left)
    |>.message "C2" (key.group.encode right)
    |>.message "d" (key.field.encode proof.difference)

/-- Proves that two commitments hide the same secret, from their blindings. -/
def prove (key : CommitmentKey Element) (history : ChallengeHistory) (left right : Element)
    (leftBlinding rightBlinding : Scalar) : SameProof × ChallengeHistory :=
  let proof : SameProof := { difference := key.field.sub leftBlinding rightBlinding }
  (proof, statement key history left right proof)

/-- The equation between a proof and what it is about. -/
def Holds (key : CommitmentKey Element) (left right : Element) (proof : SameProof) : Prop :=
  key.group.sub left right = key.scale proof.difference key.blindingBase

instance [DecidableEq Element] (key : CommitmentKey Element) (left right : Element)
    (proof : SameProof) : Decidable (Holds key left right proof) :=
  inferInstanceAs (Decidable (_ = _))

/-- Checks a proof; the history goes on alike whether it passes or not. -/
def verify [DecidableEq Element] (key : CommitmentKey Element) (history : ChallengeHistory)
    (left right : Element) (proof : SameProof) : Bool × ChallengeHistory :=
  (decide (Holds key left right proof), statement key history left right proof)

def toFields (key : CommitmentKey Element) (proof : SameProof) : List String :=
  [key.field.toHex proof.difference]

def ofFields (key : CommitmentKey Element) : List String → Except ProofError SameProof
  | [difference] =>
      Except.mapError .algebra do
        let difference ← key.field.ofHex difference
        return { difference }
  | fields => .error (.fieldCount .same fields.length)

end SameProof

end CommitScript

import CommitScript.Proof.Basic
import CommitScript.Proofs.ProofEquations

/-! # Proving and verifying in turn

A proof that is checked against the claim and the history it was made for. Both sides come to
the same history whatever the verdict, every field of the proof can be read, and the verdict is
told by the witness, except where the challenge happens to be zero.
-/

namespace CommitScript

variable {Element : Type} {key : CommitmentKey Element}

/-- A challenge that has been drawn is reduced. -/
theorem ChallengeHistory.draw_reduced (history : ChallengeHistory) (label : String)
    (field : ScalarField) : field.Reduced (history.draw label field).1 :=
  field.reduced_reduce _

namespace ValueProof

theorem prove_valid (lawful : key.Lawful) (history : ChallengeHistory) (commitment : Element)
    (value blinding nonce : Scalar) :
    (prove key history commitment value blinding nonce).1.Valid key :=
  respond_valid lawful blinding nonce (ChallengeHistory.draw_reduced _ _ _)

theorem verify_prove [DecidableEq Element] (lawful : key.Lawful) (history : ChallengeHistory)
    {commitment : Element} (member : key.group.Member commitment)
    (value blinding nonce : Scalar) :
    (verify key history commitment value (prove key history commitment value blinding nonce).1).1 =
        true ↔
      (prove key history commitment value blinding nonce).1.challenge = key.field.zero ∨
        commitment = key.commit value blinding := by
  have holds := holds_respond lawful member value blinding nonce
    (ChallengeHistory.draw_reduced (statement key history commitment value (commitNonce key nonce))
      "c" key.field)
  refine decide_eq_true_iff.trans ((and_iff_right ?_).trans holds)
  rfl

theorem verify_prove_history [DecidableEq Element] (history : ChallengeHistory)
    (commitment : Element) (value blinding nonce : Scalar) :
    (verify key history commitment value (prove key history commitment value blinding nonce).1).2 =
      (prove key history commitment value blinding nonce).2 :=
  rfl

end ValueProof

namespace SameProof

theorem prove_valid (history : ChallengeHistory) (left right : Element)
    (leftBlinding rightBlinding : Scalar) :
    (prove key history left right leftBlinding rightBlinding).1.Valid key :=
  key.field.reduced_sub _ _

theorem verify_prove [DecidableEq Element] (lawful : key.Lawful) (history : ChallengeHistory)
    {s s' t t' : Scalar} (reduced : key.field.Reduced s) (reduced' : key.field.Reduced s')
    (reducedBlinding : key.field.Reduced t') :
    (verify key history (key.commit s t) (key.commit s' t')
        (prove key history (key.commit s t) (key.commit s' t') t t').1).1 = true ↔ s = s' :=
  decide_eq_true_iff.trans (holds_sub lawful reduced reduced' reducedBlinding)

theorem verify_prove_history [DecidableEq Element] (history : ChallengeHistory)
    (left right : Element) (leftBlinding rightBlinding : Scalar) :
    (verify key history left right
        (prove key history left right leftBlinding rightBlinding).1).2 =
      (prove key history left right leftBlinding rightBlinding).2 :=
  rfl

end SameProof

namespace SquareProof

theorem prove_valid (lawful : key.Lawful) (history : ChallengeHistory) {source : Element}
    (member : key.group.Member source) (secret blinding : Scalar) (nonces : SquareNonces) :
    (prove key history source secret blinding nonces).1.proof.Valid key :=
  respond_valid lawful member secret blinding nonces (ChallengeHistory.draw_reduced _ _ _)

theorem verify_prove [DecidableEq Element] (lawful : key.Lawful) (history : ChallengeHistory)
    {source : Element} (member : key.group.Member source) (secret blinding : Scalar)
    (nonces : SquareNonces) :
    let squared := (prove key history source secret blinding nonces).1
    (verify key history source squared.commitment squared.proof).1 = true ↔
      squared.proof.challenge = key.field.zero ∨ source = key.commit secret blinding := by
  have holds := holds_respond lawful member secret blinding nonces
    (ChallengeHistory.draw_reduced (statement key history source
      (squareOf key source secret nonces) (commitSource key nonces)
      (commitSquare key source nonces)) "k" key.field)
  refine decide_eq_true_iff.trans ((and_iff_right ?_).trans holds)
  rfl

theorem verify_prove_history [DecidableEq Element] (history : ChallengeHistory)
    (source : Element) (secret blinding : Scalar) (nonces : SquareNonces) :
    let squared := (prove key history source secret blinding nonces).1
    (verify key history source squared.commitment squared.proof).2 =
      (prove key history source secret blinding nonces).2 :=
  rfl

end SquareProof

end CommitScript

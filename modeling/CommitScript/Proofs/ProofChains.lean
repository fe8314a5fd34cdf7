import Mathlib
import CommitScript.Proofs.ProveVerify
import CommitScript.Proofs.ResidueKeys

/-! # Chains of proofs

A prover that tries one claim after the other, with right witnesses and with wrong ones, and a
verifier that checks each of them in turn. Whatever the witnesses are, both sides keep the same
history, so no verdict disturbs a later one, and each verdict tells whether its witness was right
as long as the challenge is not zero.
-/

namespace CommitScript

open Success

variable {Element : Type}

/-- What a prover tries to prove, with the witness that it uses. -/
inductive Attempt (Element : Type) where
  | value (commitment : Element) (value blinding nonce : Scalar)
  | same (left right : Element) (leftBlinding rightBlinding : Scalar)
  | square (source : Element) (secret blinding : Scalar) (nonces : SquareNonces)
  deriving Repr, DecidableEq

/-- Whether the challenge of a proof, if it has one, is zero. -/
def Proof.ChallengeZero (key : CommitmentKey Element) : Proof Element → Prop
  | value proof => proof.challenge = key.field.zero
  | same _ => False
  | square proof => proof.challenge = key.field.zero

namespace Attempt

variable (key : CommitmentKey Element)

/-- The claim with its proof, and the history after it. -/
def prove (history : ChallengeHistory) :
    Attempt Element → (Claim Element × Proof Element) × ChallengeHistory
  | value commitment v blinding nonce =>
      let made := ValueProof.prove key history commitment v blinding nonce
      ((.value commitment v, .value made.1), made.2)
  | same left right leftBlinding rightBlinding =>
      let made := SameProof.prove key history left right leftBlinding rightBlinding
      ((.same left right, .same made.1), made.2)
  | square source secret blinding nonces =>
      let made := SquareProof.prove key history source secret blinding nonces
      ((.square source made.1.commitment, .square made.1.proof), made.2)

/-- Proves one claim after the other. -/
def proveAll (history : ChallengeHistory) :
    List (Attempt Element) → List (Claim Element × Proof Element) × ChallengeHistory
  | [] => ([], history)
  | attempt :: attempts =>
      let made := attempt.prove key history
      let others := proveAll made.2 attempts
      (made.1 :: others.1, others.2)

/-- Whether the witness is right. -/
def Right : Attempt Element → Prop
  | value commitment v blinding _ => commitment = key.commit v blinding
  | same left right leftBlinding rightBlinding =>
      ∃ secret, left = key.commit secret leftBlinding ∧ right = key.commit secret rightBlinding
  | square source secret blinding _ => source = key.commit secret blinding

/-- Whether an attempt is about genuine commitments, and its witness is in range. -/
def InRange : Attempt Element → Prop
  | value commitment _ _ _ => key.group.Member commitment
  | same left right _ rightBlinding =>
      key.group.Member left ∧ key.group.Member right ∧ key.field.Reduced rightBlinding
  | square source _ _ _ => key.group.Member source

end Attempt

/-- Checks one proof after the other, whatever the verdicts are. -/
def Proof.verifyAll [DecidableEq Element] (key : CommitmentKey Element)
    (history : ChallengeHistory) :
    List (Claim Element × Proof Element) → Except ProofError (List Bool × ChallengeHistory)
  | [] => .ok ([], history)
  | (claim, proof) :: others => do
      let checked ← Proof.verify key history claim proof
      let verdicts ← verifyAll key checked.2 others
      return (checked.1 :: verdicts.1, verdicts.2)

variable {key : CommitmentKey Element}

/-- A commitment opens to some secret under any blinding. -/
theorem CommitmentKey.Lawful.exists_secret (lawful : key.Lawful) {a : Element}
    (member : key.group.Member a) (blinding : Scalar) :
    ∃ secret, a = key.commit secret blinding := by
  have := lawful.prime
  let secret := lawful.log a - key.field.residue blinding * lawful.log key.blindingBase
  refine ⟨⟨secret.val⟩, ?_⟩
  have residue : key.field.residue ⟨secret.val⟩ = secret := ZMod.natCast_zmod_val secret
  rw [← lawful.log_inj member (lawful.commit_member _ _), lawful.log_commit, residue,
    sub_add_cancel]

/-- The difference of two blindings is accepted just when some secret opens both commitments
    under them. -/
theorem SameProof.holds_sub_iff (lawful : key.Lawful) {left right : Element}
    (memberLeft : key.group.Member left) (memberRight : key.group.Member right)
    (leftBlinding : Scalar) {rightBlinding : Scalar} (reduced : key.field.Reduced rightBlinding) :
    Holds key left right ⟨key.field.sub leftBlinding rightBlinding⟩ ↔
      ∃ secret,
        left = key.commit secret leftBlinding ∧ right = key.commit secret rightBlinding := by
  rw [holds_iff lawful memberLeft memberRight, key.field.residue_sub _ reduced]
  constructor
  · intro holds
    obtain ⟨secret, rfl⟩ := lawful.exists_secret memberLeft leftBlinding
    refine ⟨secret, rfl, ?_⟩
    rw [lawful.log_commit] at holds
    rw [← lawful.log_inj memberRight (lawful.commit_member _ _), lawful.log_commit]
    linear_combination -holds
  · rintro ⟨secret, rfl, rfl⟩
    rw [lawful.log_commit, lawful.log_commit]
    ring

/-- A proof is checked to the verdict that its witness deserves, and leaves both sides with one
    history. -/
theorem Attempt.verify_prove [DecidableEq Element] (lawful : key.Lawful)
    (history : ChallengeHistory) {attempt : Attempt Element} (inRange : attempt.InRange key) :
    ∃ verdict,
      Proof.verify key history (attempt.prove key history).1.1 (attempt.prove key history).1.2 =
        .ok (verdict, (attempt.prove key history).2) ∧
      (verdict = true ↔
        (attempt.prove key history).1.2.ChallengeZero key ∨ attempt.Right key) := by
  cases attempt with
  | value commitment v blinding nonce =>
      exact ⟨_, rfl, ValueProof.verify_prove lawful history inRange v blinding nonce⟩
  | same left right leftBlinding rightBlinding =>
      obtain ⟨memberLeft, memberRight, reduced⟩ := inRange
      have shared := SameProof.holds_sub_iff lawful memberLeft memberRight leftBlinding reduced
      exact ⟨_, rfl, decide_eq_true_iff.trans (shared.trans (or_iff_right id).symm)⟩
  | square source secret blinding nonces =>
      exact ⟨_, rfl, SquareProof.verify_prove lawful history inRange secret blinding nonces⟩

/-- A chain of proofs is checked to the end, each to the verdict that its witness deserves. -/
theorem Proof.verifyAll_proveAll [DecidableEq Element] (lawful : key.Lawful)
    (history : ChallengeHistory) {attempts : List (Attempt Element)}
    (inRange : ∀ attempt ∈ attempts, attempt.InRange key) :
    ∃ verdicts,
      verifyAll key history (Attempt.proveAll key history attempts).1 =
        .ok (verdicts, (Attempt.proveAll key history attempts).2) ∧
      List.Forall₂ (fun attempt checked =>
          checked.2 = true ↔ checked.1.2.ChallengeZero key ∨ attempt.Right key)
        attempts ((Attempt.proveAll key history attempts).1.zip verdicts) := by
  induction attempts generalizing history with
  | nil => exact ⟨[], rfl, .nil⟩
  | cons attempt attempts ih =>
      rw [List.forall_mem_cons] at inRange
      obtain ⟨verdict, checks, exact⟩ := Attempt.verify_prove lawful history inRange.1
      obtain ⟨verdicts, checked, others⟩ := ih (attempt.prove key history).2 inRange.2
      refine ⟨verdict :: verdicts, ?_, .cons exact others⟩
      exact except_bind_eq_ok.mpr ⟨_, checks, except_bind_eq_ok.mpr ⟨_, checked, rfl⟩⟩

/-- A proof made with any witness, and checked with the history that it was made with, is accepted
    just when the witness is right or the challenge is zero. The difference of two blindings has no
    challenge and is accepted just when it is the difference of the commitments. In each case both
    sides come to one history, so this holds along any chain of proofs. -/
theorem verdicts_follow_witnesses [DecidableEq Element] (lawful : key.Lawful) :
    (∀ history commitment value blinding nonce, key.group.Member commitment →
      let made := ValueProof.prove key history commitment value blinding nonce
      let checked := ValueProof.verify key history commitment value made.1
      (checked.1 = true ↔
        commitment = key.commit value blinding ∨ made.1.challenge = key.field.zero) ∧
      checked.2 = made.2) ∧
    (∀ history source secret blinding nonces, key.group.Member source →
      let made := SquareProof.prove key history source secret blinding nonces
      let checked := SquareProof.verify key history source made.1.commitment made.1.proof
      (checked.1 = true ↔
        source = key.commit secret blinding ∨ made.1.proof.challenge = key.field.zero) ∧
      (source = key.commit secret blinding →
        made.1.commitment = key.commit made.1.secret made.1.blinding) ∧
      key.field.residue made.1.secret = key.field.residue secret ^ 2 ∧
      key.field.Reduced made.1.secret ∧
      checked.2 = made.2) ∧
    (∀ history left right leftBlinding rightBlinding, key.group.Member left →
      key.group.Member right → key.field.Reduced rightBlinding →
      let made := SameProof.prove key history left right leftBlinding rightBlinding
      let checked := SameProof.verify key history left right made.1
      (checked.1 = true ↔ key.group.sub left right =
        key.scale (key.field.sub leftBlinding rightBlinding) key.blindingBase) ∧
      (checked.1 = true ↔
        ∃ secret, left = key.commit secret leftBlinding ∧
          right = key.commit secret rightBlinding) ∧
      checked.2 = made.2) ∧
    (∀ history attempts, (∀ attempt ∈ attempts, attempt.InRange key) →
      let made := Attempt.proveAll key history attempts
      ∃ verdicts, Proof.verifyAll key history made.1 = .ok (verdicts, made.2) ∧
        List.Forall₂ (fun attempt checked =>
            checked.2 = true ↔ checked.1.2.ChallengeZero key ∨ attempt.Right key)
          attempts (made.1.zip verdicts)) := by
  refine ⟨?_, ?_, ?_, ?_⟩
  · intro history commitment value blinding nonce member
    refine ⟨?_, ValueProof.verify_prove_history history commitment value blinding nonce⟩
    exact (ValueProof.verify_prove lawful history member value blinding nonce).trans or_comm
  · intro history source secret blinding nonces member
    refine ⟨?_, ?_, ?_, key.field.reduced_mul _ _,
      SquareProof.verify_prove_history history source secret blinding nonces⟩
    · exact (SquareProof.verify_prove lawful history member secret blinding nonces).trans or_comm
    · rintro rfl
      exact SquareProof.squareOf_commit lawful secret blinding nonces
    · exact (key.field.residue_mul secret secret).trans (sq _).symm
  · intro history left right leftBlinding rightBlinding memberLeft memberRight reduced
    refine ⟨decide_eq_true_iff, decide_eq_true_iff.trans ?_,
      SameProof.verify_prove_history history left right leftBlinding rightBlinding⟩
    exact SameProof.holds_sub_iff lawful memberLeft memberRight leftBlinding reduced
  · intro history attempts inRange
    exact Proof.verifyAll_proveAll lawful history inRange

/-- Over the residues of twenty-three, commitments to two and three are not shown to share a
    secret by the difference of their blindings. -/
theorem verdicts_follow_witnesses_small :
    let key := ResidueGroup.small.keyOf ⟨3⟩
    let left := key.commit ⟨2⟩ ⟨5⟩
    let right := key.commit ⟨3⟩ ⟨4⟩
    (SameProof.verify key key.history left right
      (SameProof.prove key key.history left right ⟨5⟩ ⟨4⟩).1).1 = false := by
  intro key left right
  have lawful : key.Lawful := ResidueGroup.small_lawful
  have checked := (verdicts_follow_witnesses lawful).2.2.1 key.history left right ⟨5⟩ ⟨4⟩
    (lawful.commit_member _ _) (lawful.commit_member _ _) (show 4 < 11 by decide)
  rw [Bool.eq_false_iff, ne_eq, checked.1]
  decide

end CommitScript

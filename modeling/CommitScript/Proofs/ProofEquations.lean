import CommitScript.Proofs.KeyLaws
import CommitScript.Proofs.ProofFields

/-! # What the equations of proofs say

Under a logarithm the equation of each proof is one between residues. From it follows when a
proof that answers a challenge holds, which for a right witness is always and for a wrong one
only when the challenge is zero; and that no single part of a proof can be exchanged, since
the other parts with the history determine it.
-/

namespace CommitScript

variable {Element : Type} {key : CommitmentKey Element}

namespace CommitmentKey.Lawful

variable (lawful : key.Lawful)
include lawful

/-- Commitments under one blinding are as different as their secrets. -/
theorem commit_inj_secret {s s' t : Scalar} (h : key.field.Reduced s) (h' : key.field.Reduced s') :
    key.commit s t = key.commit s' t ↔ s = s' := by
  rw [← lawful.log_inj (lawful.commit_member _ _) (lawful.commit_member _ _), lawful.log_commit,
    lawful.log_commit, add_left_inj, ScalarField.residue_inj h h']

end CommitmentKey.Lawful

namespace ValueProof

theorem holds_iff (lawful : key.Lawful) {commitment : Element}
    (member : key.group.Member commitment) (value : Scalar) {proof : ValueProof Element}
    (nonce : key.group.Member proof.nonceCommitment) :
    Holds key commitment value proof ↔
      key.field.residue proof.response * lawful.log key.blindingBase =
        lawful.log proof.nonceCommitment + key.field.residue proof.challenge *
          (lawful.log commitment - key.field.residue value) := by
  have revealed := lawful.scale_member value lawful.group.generator_member
  have hidden := lawful.group.sub_member member revealed
  have right := lawful.group.add_member nonce (lawful.scale_member proof.challenge hidden)
  rw [Holds, ← lawful.log_inj (lawful.scale_member _ lawful.base_member) right,
    lawful.log_scale _ lawful.base_member, lawful.log_add nonce (lawful.scale_member _ hidden),
    lawful.log_scale _ hidden, lawful.log_sub member revealed,
    lawful.log_scale _ lawful.group.generator_member, lawful.log_generator, mul_one]

theorem respond_valid (lawful : key.Lawful) (blinding nonce : Scalar) {challenge : Scalar}
    (reduced : key.field.Reduced challenge) : (respond key blinding nonce challenge).Valid key :=
  ⟨lawful.scale_member nonce lawful.base_member, reduced, key.field.reduced_add _ _⟩

/-- An answer holds when the witness opens the commitment to the value, and else only for the
    challenge zero. -/
theorem holds_respond (lawful : key.Lawful) {commitment : Element}
    (member : key.group.Member commitment) (value blinding nonce : Scalar) {challenge : Scalar}
    (reduced : key.field.Reduced challenge) :
    Holds key commitment value (respond key blinding nonce challenge) ↔
      challenge = key.field.zero ∨ commitment = key.commit value blinding := by
  have := lawful.prime
  have valid := respond_valid lawful blinding nonce reduced
  rw [holds_iff lawful member value valid.nonceCommitment, ← ScalarField.residue_eq_zero reduced,
    ← lawful.log_inj member (lawful.commit_member _ _), lawful.log_commit,
    ← sub_eq_zero (a := lawful.log commitment), ← mul_eq_zero]
  simp only [respond, commitNonce, ScalarField.residue_add, ScalarField.residue_mul,
    lawful.log_scale nonce lawful.base_member]
  constructor
  · intro answered
    linear_combination -answered
  · intro wrong
    linear_combination -wrong

/-- A proof that a history accepts is not accepted with one part exchanged. -/
theorem eq_of_verify [DecidableEq Element] (lawful : key.Lawful) {history : ChallengeHistory}
    {commitment : Element} (member : key.group.Member commitment) {value : Scalar}
    {proof other : ValueProof Element} (valid : proof.Valid key) (validOther : other.Valid key)
    (accepted : (verify key history commitment value proof).1 = true)
    (acceptedOther : (verify key history commitment value other).1 = true)
    (exchanged : proof.Exchanged other) : other = proof := by
  have := lawful.prime
  obtain ⟨drawn, holds⟩ := of_decide_eq_true accepted
  obtain ⟨drawnOther, holdsOther⟩ := of_decide_eq_true acceptedOther
  rw [holds_iff lawful member value valid.nonceCommitment] at holds
  rw [holds_iff lawful member value validOther.nonceCommitment] at holdsOther
  cases exchanged with
  | nonceCommitment u =>
      rw [holds, add_left_inj, lawful.log_inj valid.nonceCommitment validOther.nonceCommitment]
        at holdsOther
      cases holdsOther
      rfl
  | challenge c =>
      cases drawn.symm.trans drawnOther
      rfl
  | response z =>
      rw [← holds, mul_left_inj' lawful.log_base_ne,
        ScalarField.residue_inj validOther.response valid.response] at holdsOther
      cases holdsOther
      rfl

end ValueProof

namespace SameProof

theorem holds_iff (lawful : key.Lawful) {left right : Element} (memberLeft : key.group.Member left)
    (memberRight : key.group.Member right) (proof : SameProof) :
    Holds key left right proof ↔
      lawful.log left - lawful.log right =
        key.field.residue proof.difference * lawful.log key.blindingBase := by
  rw [Holds, ← lawful.log_inj (lawful.group.sub_member memberLeft memberRight)
    (lawful.scale_member _ lawful.base_member), lawful.log_sub memberLeft memberRight,
    lawful.log_scale _ lawful.base_member]

/-- The difference of the blindings shows that two commitments share a secret, and only
    then. -/
theorem holds_sub (lawful : key.Lawful) {s s' t t' : Scalar} (reduced : key.field.Reduced s)
    (reduced' : key.field.Reduced s') (reducedBlinding : key.field.Reduced t') :
    Holds key (key.commit s t) (key.commit s' t') ⟨key.field.sub t t'⟩ ↔ s = s' := by
  rw [holds_iff lawful (lawful.commit_member _ _) (lawful.commit_member _ _), lawful.log_commit,
    lawful.log_commit, key.field.residue_sub t reducedBlinding,
    ← ScalarField.residue_inj reduced reduced']
  constructor
  · intro shared
    linear_combination shared
  · intro same
    linear_combination same

theorem eq_of_verify [DecidableEq Element] (lawful : key.Lawful) (history : ChallengeHistory)
    {left right : Element} (memberLeft : key.group.Member left)
    (memberRight : key.group.Member right) {proof other : SameProof} (valid : proof.Valid key)
    (validOther : other.Valid key) (accepted : (verify key history left right proof).1 = true)
    (acceptedOther : (verify key history left right other).1 = true) : other = proof := by
  have := lawful.prime
  have holds := (holds_iff lawful memberLeft memberRight proof).mp (of_decide_eq_true accepted)
  have holdsOther :=
    (holds_iff lawful memberLeft memberRight other).mp (of_decide_eq_true acceptedOther)
  rw [holds, mul_left_inj' lawful.log_base_ne, ScalarField.residue_inj valid validOther]
    at holdsOther
  cases proof
  exact congrArg SameProof.mk holdsOther.symm

end SameProof

namespace SquareProof

theorem holds_iff (lawful : key.Lawful) {source squared : Element}
    (memberSource : key.group.Member source) (memberSquared : key.group.Member squared)
    {proof : SquareProof Element} (valid : proof.Valid key) :
    Holds key source squared proof ↔
      lawful.log proof.sourceCommitment + key.field.residue proof.challenge * lawful.log source =
          key.field.residue proof.secretResponse +
            key.field.residue proof.sourceResponse * lawful.log key.blindingBase ∧
        lawful.log proof.squareCommitment + key.field.residue proof.challenge * lawful.log squared =
          key.field.residue proof.secretResponse * lawful.log source +
            key.field.residue proof.squareResponse * lawful.log key.blindingBase := by
  have first := lawful.scale_member proof.challenge memberSource
  have second := lawful.scale_member proof.challenge memberSquared
  rw [Holds,
    ← lawful.log_inj (lawful.group.add_member valid.sourceCommitment first)
      (lawful.commit_member _ _),
    ← lawful.log_inj (lawful.group.add_member valid.squareCommitment second)
      (lawful.commitWith_member memberSource _ _),
    lawful.log_add valid.sourceCommitment first, lawful.log_add valid.squareCommitment second,
    lawful.log_scale _ memberSource, lawful.log_scale _ memberSquared, lawful.log_commit,
    lawful.log_commitWith memberSource]

theorem squareOf_member (lawful : key.Lawful) {source : Element}
    (member : key.group.Member source) (secret : Scalar) (nonces : SquareNonces) :
    key.group.Member (squareOf key source secret nonces) :=
  lawful.commitWith_member member secret nonces.blinding

theorem respond_valid (lawful : key.Lawful) {source : Element} (member : key.group.Member source)
    (secret blinding : Scalar) (nonces : SquareNonces) {challenge : Scalar}
    (reduced : key.field.Reduced challenge) :
    (respond key source secret blinding nonces challenge).Valid key :=
  ⟨lawful.commit_member _ _, lawful.commitWith_member member _ _, reduced,
    key.field.reduced_add _ _, key.field.reduced_add _ _, key.field.reduced_add _ _⟩

/-- The new commitment is one to the square of the secret, under the usual generators. -/
theorem squareOf_commit (lawful : key.Lawful) (secret blinding : Scalar) (nonces : SquareNonces) :
    squareOf key (key.commit secret blinding) secret nonces =
      key.commit (key.field.mul secret secret)
        (key.field.add (key.field.mul secret blinding) nonces.blinding) := by
  have member := lawful.commit_member secret blinding
  rw [← lawful.log_inj (squareOf_member lawful member secret nonces) (lawful.commit_member _ _),
    squareOf, lawful.log_commitWith member, lawful.log_commit, lawful.log_commit]
  simp only [ScalarField.residue_add, ScalarField.residue_mul]
  ring

/-- An answer holds when the witness opens the source, and else only for the challenge
    zero. -/
theorem holds_respond (lawful : key.Lawful) {source : Element} (member : key.group.Member source)
    (secret blinding : Scalar) (nonces : SquareNonces) {challenge : Scalar}
    (reduced : key.field.Reduced challenge) :
    Holds key source (squareOf key source secret nonces)
        (respond key source secret blinding nonces challenge) ↔
      challenge = key.field.zero ∨ source = key.commit secret blinding := by
  have := lawful.prime
  have valid := respond_valid lawful member secret blinding nonces reduced
  rw [holds_iff lawful member (squareOf_member lawful member secret nonces) valid,
    ← ScalarField.residue_eq_zero reduced, ← lawful.log_inj member (lawful.commit_member _ _),
    lawful.log_commit, ← sub_eq_zero (a := lawful.log source), ← mul_eq_zero]
  simp only [respond, commitSource, commitSquare, squareOf, ScalarField.residue_add,
    ScalarField.residue_mul, lawful.log_commit, lawful.log_commitWith member]
  constructor
  · rintro ⟨opened, -⟩
    linear_combination opened
  · intro wrong
    constructor
    · linear_combination wrong
    · ring

/-- A proof that a history accepts is not accepted with one part exchanged. -/
theorem eq_of_verify [DecidableEq Element] (lawful : key.Lawful) {history : ChallengeHistory}
    {source squared : Element} (memberSource : key.group.Member source)
    (memberSquared : key.group.Member squared) {proof other : SquareProof Element}
    (valid : proof.Valid key) (validOther : other.Valid key)
    (accepted : (verify key history source squared proof).1 = true)
    (acceptedOther : (verify key history source squared other).1 = true)
    (exchanged : proof.Exchanged other) : other = proof := by
  have := lawful.prime
  obtain ⟨drawn, holds⟩ := of_decide_eq_true accepted
  obtain ⟨drawnOther, holdsOther⟩ := of_decide_eq_true acceptedOther
  obtain ⟨first, second⟩ := (holds_iff lawful memberSource memberSquared valid).mp holds
  obtain ⟨firstOther, secondOther⟩ :=
    (holds_iff lawful memberSource memberSquared validOther).mp holdsOther
  cases exchanged with
  | sourceCommitment c3 =>
      rw [← first, add_left_inj,
        lawful.log_inj validOther.sourceCommitment valid.sourceCommitment] at firstOther
      cases firstOther
      rfl
  | squareCommitment c4 =>
      rw [← second, add_left_inj,
        lawful.log_inj validOther.squareCommitment valid.squareCommitment] at secondOther
      cases secondOther
      rfl
  | challenge k =>
      cases drawn.symm.trans drawnOther
      rfl
  | secretResponse z1 =>
      rw [first, add_left_inj,
        ScalarField.residue_inj valid.secretResponse validOther.secretResponse] at firstOther
      cases firstOther
      rfl
  | sourceResponse z2 =>
      rw [first, add_right_inj, mul_left_inj' lawful.log_base_ne,
        ScalarField.residue_inj valid.sourceResponse validOther.sourceResponse] at firstOther
      cases firstOther
      rfl
  | squareResponse z3 =>
      rw [second, add_right_inj, mul_left_inj' lawful.log_base_ne,
        ScalarField.residue_inj valid.squareResponse validOther.squareResponse] at secondOther
      cases secondOther
      rfl

/-- With a challenge other than zero a proof is accepted for one new commitment only. -/
theorem squared_eq_of_verify [DecidableEq Element] (lawful : key.Lawful)
    {history history' : ChallengeHistory} {source squared squared' : Element}
    (memberSource : key.group.Member source) (memberSquared : key.group.Member squared)
    (memberSquared' : key.group.Member squared') {proof : SquareProof Element}
    (valid : proof.Valid key) (nonzero : proof.challenge ≠ key.field.zero)
    (accepted : (verify key history source squared proof).1 = true)
    (accepted' : (verify key history' source squared' proof).1 = true) : squared' = squared := by
  have := lawful.prime
  have holds := (of_decide_eq_true accepted).2
  have holds' := (of_decide_eq_true accepted').2
  have second := ((holds_iff lawful memberSource memberSquared valid).mp holds).2
  have second' := ((holds_iff lawful memberSource memberSquared' valid).mp holds').2
  rw [ne_eq, ← ScalarField.residue_eq_zero valid.challenge] at nonzero
  rw [← second, add_right_inj, mul_right_inj' nonzero,
    lawful.log_inj memberSquared' memberSquared] at second'
  exact second'

end SquareProof

end CommitScript

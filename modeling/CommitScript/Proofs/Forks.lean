import CommitScript.Proofs.ProveVerify
import CommitScript.Proofs.ResidueKeys

/-! # Forked proofs give openings away

Two proofs that begin with the same nonces and answer different challenges are a fork. When a
verifier accepts both, each from a history of its own, the quotients of their differences open
the commitments that the proofs are about. So whoever can answer two challenges knows an
opening. The proof of a shared secret has no challenge; one of them already carries every
opening of its left commitment over to the right one.
-/

namespace CommitScript

open Success

variable {Element : Type} {key : CommitmentKey Element}

/-- The difference of two responses over the difference of their challenges. -/
def ScalarField.slope (field : ScalarField) (response response' challenge challenge' : Scalar) :
    Except AlgebraError Scalar := do
  let inverse ← field.inverse (field.sub challenge challenge')
  return field.mul (field.sub response response') inverse

/-- Two proofs of a public value that answer different challenges after the same nonce. -/
structure ValueProof.Forks (proof proof' : ValueProof Element) : Prop where
  nonceCommitment : proof'.nonceCommitment = proof.nonceCommitment
  challenge : proof'.challenge ≠ proof.challenge

/-- Two proofs of a square that answer different challenges after the same nonces. -/
structure SquareProof.Forks (proof proof' : SquareProof Element) : Prop where
  sourceCommitment : proof'.sourceCommitment = proof.sourceCommitment
  squareCommitment : proof'.squareCommitment = proof.squareCommitment
  challenge : proof'.challenge ≠ proof.challenge

/-- Who uses a nonce for two challenges makes a fork. -/
theorem ValueProof.forks_of_reuse {history history' : ChallengeHistory} {commitment : Element}
    {value blinding nonce : Scalar}
    (differ : (prove key history' commitment value blinding nonce).1.challenge ≠
      (prove key history commitment value blinding nonce).1.challenge) :
    (prove key history commitment value blinding nonce).1.Forks
      (prove key history' commitment value blinding nonce).1 where
  nonceCommitment := by simp only [prove, respond]
  challenge := differ

theorem SquareProof.forks_of_reuse {history history' : ChallengeHistory} {source : Element}
    {secret blinding : Scalar} {nonces : SquareNonces}
    (differ : (prove key history' source secret blinding nonces).1.proof.challenge ≠
      (prove key history source secret blinding nonces).1.proof.challenge) :
    (prove key history source secret blinding nonces).1.proof.Forks
      (prove key history' source secret blinding nonces).1.proof where
  sourceCommitment := by simp only [prove, respond]
  squareCommitment := by simp only [prove, respond]
  challenge := differ

namespace ScalarField

variable {field : ScalarField} {response' challenge challenge' : Scalar}

theorem residue_sub_ne_zero (reduced : field.Reduced challenge)
    (reduced' : field.Reduced challenge') (differ : challenge' ≠ challenge) :
    field.residue challenge - field.residue challenge' ≠ 0 := by
  rw [sub_ne_zero, ne_eq, residue_inj reduced reduced']
  exact differ.symm

/-- The slope of a fork exists, and times the step between the challenges it is the step between
    the responses. -/
theorem exists_slope (prime : field.modulus.Prime) (response : Scalar)
    (reduced : field.Reduced response') (reducedChallenge : field.Reduced challenge)
    (reducedChallenge' : field.Reduced challenge') (differ : challenge' ≠ challenge) :
    ∃ a, field.slope response response' challenge challenge' = .ok a ∧
      field.residue a * (field.residue challenge - field.residue challenge') =
        field.residue response - field.residue response' := by
  have step : field.sub challenge challenge' ≠ field.zero := by
    rw [ne_eq, ← residue_eq_zero (field.reduced_sub _ _), residue_sub _ _ reducedChallenge']
    exact residue_sub_ne_zero reducedChallenge reducedChallenge' differ
  obtain ⟨inverse, inverts, cancels⟩ := exists_inverse prime (field.reduced_sub _ _) step
  refine ⟨field.mul (field.sub response response') inverse, ?_, ?_⟩
  · simp [slope, inverts]
  · rw [residue_sub _ _ reducedChallenge'] at cancels
    rw [residue_mul, residue_sub _ _ reduced, mul_assoc, cancels, mul_one]

end ScalarField

theorem ValueProof.opens_of_forks [DecidableEq Element] (lawful : key.Lawful)
    {history history' : ChallengeHistory} {commitment : Element} {value : Scalar}
    {proof proof' : ValueProof Element} (member : key.group.Member commitment)
    (valid : proof.Valid key) (valid' : proof'.Valid key) (forks : proof.Forks proof')
    (accepted : (verify key history commitment value proof).1 = true)
    (accepted' : (verify key history' commitment value proof').1 = true) :
    ∃ blinding,
      key.field.slope proof.response proof'.response proof.challenge proof'.challenge =
        .ok blinding ∧
      commitment = key.commit value blinding := by
  have := lawful.prime
  obtain ⟨blinding, slope, step⟩ := ScalarField.exists_slope this.out proof.response
    valid'.response valid.challenge valid'.challenge forks.challenge
  refine ⟨blinding, slope, ?_⟩
  have holds := (holds_iff lawful member value valid.nonceCommitment).mp
    (of_decide_eq_true accepted).2
  have holds' := (holds_iff lawful member value valid'.nonceCommitment).mp
    (of_decide_eq_true accepted').2
  rw [forks.nonceCommitment] at holds'
  have apart := ScalarField.residue_sub_ne_zero valid.challenge valid'.challenge forks.challenge
  rw [← lawful.log_inj member (lawful.commit_member _ _), lawful.log_commit]
  apply mul_left_cancel₀ apart
  linear_combination holds' - holds - lawful.log key.blindingBase * step

theorem SquareProof.opens_of_forks [DecidableEq Element] (lawful : key.Lawful)
    {history history' : ChallengeHistory} {source squared : Element}
    {proof proof' : SquareProof Element} (memberSource : key.group.Member source)
    (memberSquared : key.group.Member squared) (valid : proof.Valid key)
    (valid' : proof'.Valid key) (forks : proof.Forks proof')
    (accepted : (verify key history source squared proof).1 = true)
    (accepted' : (verify key history' source squared proof').1 = true) :
    ∃ secret sourceBlinding blinding,
      key.field.slope proof.secretResponse proof'.secretResponse proof.challenge
          proof'.challenge = .ok secret ∧
      key.field.slope proof.sourceResponse proof'.sourceResponse proof.challenge
          proof'.challenge = .ok sourceBlinding ∧
      key.field.slope proof.squareResponse proof'.squareResponse proof.challenge
          proof'.challenge = .ok blinding ∧
      source = key.commit secret sourceBlinding ∧
      squared = key.commitWith source secret blinding := by
  have := lawful.prime
  obtain ⟨secret, slope₁, step₁⟩ := ScalarField.exists_slope this.out proof.secretResponse
    valid'.secretResponse valid.challenge valid'.challenge forks.challenge
  obtain ⟨sourceBlinding, slope₂, step₂⟩ := ScalarField.exists_slope this.out
    proof.sourceResponse valid'.sourceResponse valid.challenge valid'.challenge forks.challenge
  obtain ⟨blinding, slope₃, step₃⟩ := ScalarField.exists_slope this.out proof.squareResponse
    valid'.squareResponse valid.challenge valid'.challenge forks.challenge
  refine ⟨secret, sourceBlinding, blinding, slope₁, slope₂, slope₃, ?_⟩
  obtain ⟨first, second⟩ := (holds_iff lawful memberSource memberSquared valid).mp
    (of_decide_eq_true accepted).2
  obtain ⟨first', second'⟩ := (holds_iff lawful memberSource memberSquared valid').mp
    (of_decide_eq_true accepted').2
  rw [forks.sourceCommitment] at first'
  rw [forks.squareCommitment] at second'
  have apart := ScalarField.residue_sub_ne_zero valid.challenge valid'.challenge forks.challenge
  rw [← lawful.log_inj memberSource (lawful.commit_member _ _), lawful.log_commit,
    ← lawful.log_inj memberSquared (lawful.commitWith_member memberSource _ _),
    lawful.log_commitWith memberSource]
  constructor
  · apply mul_left_cancel₀ apart
    linear_combination first - first' - step₁ - lawful.log key.blindingBase * step₂
  · -- The secret is the same as in the first equation, for both share its response.
    apply mul_left_cancel₀ apart
    linear_combination second - second' - lawful.log source * step₁ -
      lawful.log key.blindingBase * step₃

theorem SameProof.opens_right [DecidableEq Element] (lawful : key.Lawful)
    {history : ChallengeHistory} {left right : Element} {proof : SameProof}
    (memberLeft : key.group.Member left) (memberRight : key.group.Member right)
    (valid : proof.Valid key) (accepted : (verify key history left right proof).1 = true)
    {secret blinding : Scalar} (opens : left = key.commit secret blinding) :
    right = key.commit secret (key.field.sub blinding proof.difference) := by
  have holds := (holds_iff lawful memberLeft memberRight proof).mp (of_decide_eq_true accepted)
  rw [opens, lawful.log_commit] at holds
  rw [← lawful.log_inj memberRight (lawful.commit_member _ _), lawful.log_commit,
    key.field.residue_sub _ valid]
  linear_combination -holds

namespace CommitmentKey

/-- A fork of accepted proofs gives the opening away that its proofs are about, as quotients of
    its responses and challenges: the blinding behind a public value, or the one secret behind a
    source and its square. An accepted proof of a shared secret does so for every opening of the
    left commitment. -/
theorem forks_give_openings [DecidableEq Element] (lawful : key.Lawful) :
    (∀ history history' commitment value (proof proof' : ValueProof Element),
      key.group.Member commitment → proof.Valid key → proof'.Valid key → proof.Forks proof' →
      (ValueProof.verify key history commitment value proof).1 = true →
      (ValueProof.verify key history' commitment value proof').1 = true →
      ∃ blinding,
        key.field.slope proof.response proof'.response proof.challenge proof'.challenge =
          .ok blinding ∧
        commitment = key.commit value blinding) ∧
    (∀ history history' source squared (proof proof' : SquareProof Element),
      key.group.Member source → key.group.Member squared → proof.Valid key →
      proof'.Valid key → proof.Forks proof' →
      (SquareProof.verify key history source squared proof).1 = true →
      (SquareProof.verify key history' source squared proof').1 = true →
      ∃ secret sourceBlinding blinding,
        key.field.slope proof.secretResponse proof'.secretResponse proof.challenge
            proof'.challenge = .ok secret ∧
        key.field.slope proof.sourceResponse proof'.sourceResponse proof.challenge
            proof'.challenge = .ok sourceBlinding ∧
        key.field.slope proof.squareResponse proof'.squareResponse proof.challenge
            proof'.challenge = .ok blinding ∧
        source = key.commit secret sourceBlinding ∧
        squared = key.commitWith source secret blinding ∧
        squared = key.commit (key.field.mul secret secret)
          (key.field.add (key.field.mul secret sourceBlinding) blinding)) ∧
    ∀ history left right (proof : SameProof),
      key.group.Member left → key.group.Member right → proof.Valid key →
      (SameProof.verify key history left right proof).1 = true →
      ∀ secret blinding, left = key.commit secret blinding →
        right = key.commit secret (key.field.sub blinding proof.difference) := by
  refine ⟨?_, ?_, ?_⟩
  · intro history history' commitment value proof proof' member valid valid' forks accepted
      accepted'
    exact ValueProof.opens_of_forks lawful member valid valid' forks accepted accepted'
  · intro history history' source squared proof proof' memberSource memberSquared valid valid'
      forks accepted accepted'
    obtain ⟨secret, sourceBlinding, blinding, slope₁, slope₂, slope₃, opens, opens'⟩ :=
      SquareProof.opens_of_forks lawful memberSource memberSquared valid valid' forks accepted
        accepted'
    have square := SquareProof.squareOf_commit lawful secret sourceBlinding
      { blinding, secretNonce := secret, sourceNonce := secret, squareNonce := secret }
    rw [SquareProof.squareOf, ← opens, ← opens'] at square
    exact ⟨secret, sourceBlinding, blinding, slope₁, slope₂, slope₃, opens, opens', square⟩
  · intro history left right proof memberLeft memberRight valid accepted secret blinding opens
    exact SameProof.opens_right lawful memberLeft memberRight valid accepted opens

open ResidueGroup in
theorem forks_give_openings_small :
    (∃ (proof proof' : ValueProof Residue) (blinding : Scalar), proof.Forks proof' ∧
      (small.keyOf ⟨3⟩).field.slope proof.response proof'.response proof.challenge
        proof'.challenge = .ok blinding ∧
      (small.keyOf ⟨3⟩).commit ⟨2⟩ ⟨5⟩ = (small.keyOf ⟨3⟩).commit ⟨2⟩ blinding) ∧
    (∃ (proof proof' : SquareProof Residue) (secret sourceBlinding : Scalar),
      proof.Forks proof' ∧
      (small.keyOf ⟨3⟩).field.slope proof.secretResponse proof'.secretResponse proof.challenge
        proof'.challenge = .ok secret ∧
      (small.keyOf ⟨3⟩).commit ⟨2⟩ ⟨5⟩ = (small.keyOf ⟨3⟩).commit secret sourceBlinding) ∧
    ∃ proof : SameProof,
      (small.keyOf ⟨3⟩).commit ⟨2⟩ ⟨4⟩ =
        (small.keyOf ⟨3⟩).commit ⟨2⟩ ((small.keyOf ⟨3⟩).field.sub ⟨5⟩ proof.difference) := by
  have lawful := small_lawful
  have reduced : (small.keyOf ⟨3⟩).field.Reduced ⟨2⟩ ∧ (small.keyOf ⟨3⟩).field.Reduced ⟨4⟩ := by
    unfold ScalarField.Reduced
    decide
  -- Challenges have to differ, so the sponge is run here.
  have differ : let later := ChallengeHistory.empty.message "" []
      (ValueProof.prove (small.keyOf ⟨3⟩) later ((small.keyOf ⟨3⟩).commit ⟨2⟩ ⟨5⟩) ⟨2⟩ ⟨5⟩
            ⟨4⟩).1.challenge ≠
          (ValueProof.prove (small.keyOf ⟨3⟩) .empty ((small.keyOf ⟨3⟩).commit ⟨2⟩ ⟨5⟩) ⟨2⟩ ⟨5⟩
            ⟨4⟩).1.challenge ∧
        (SquareProof.prove (small.keyOf ⟨3⟩) later ((small.keyOf ⟨3⟩).commit ⟨2⟩ ⟨5⟩) ⟨2⟩ ⟨5⟩
            ⟨⟨1⟩, ⟨2⟩, ⟨3⟩, ⟨4⟩⟩).1.proof.challenge ≠
          (SquareProof.prove (small.keyOf ⟨3⟩) .empty ((small.keyOf ⟨3⟩).commit ⟨2⟩ ⟨5⟩) ⟨2⟩ ⟨5⟩
            ⟨⟨1⟩, ⟨2⟩, ⟨3⟩, ⟨4⟩⟩).1.proof.challenge := by
    simp only [ValueProof.prove, ValueProof.respond, ValueProof.drawChallenge, SquareProof.prove,
      SquareProof.respond, SquareProof.drawChallenge, ChallengeHistory.draw_eq]
    decide +kernel
  generalize small.keyOf ⟨3⟩ = key at lawful reduced differ ⊢
  have member := lawful.commit_member ⟨2⟩ ⟨5⟩
  obtain ⟨values, squares, sames⟩ := forks_give_openings lawful
  refine ⟨?_, ?_, ?_⟩
  · have forks := ValueProof.forks_of_reuse differ.1
    obtain ⟨blinding, opens⟩ := values _ _ _ _ _ _ member
      (ValueProof.prove_valid lawful _ _ _ _ _) (ValueProof.prove_valid lawful _ _ _ _ _) forks
      ((ValueProof.verify_prove lawful _ member _ _ _).mpr (.inr rfl))
      ((ValueProof.verify_prove lawful _ member _ _ _).mpr (.inr rfl))
    exact ⟨_, _, blinding, forks, opens⟩
  · have forks := SquareProof.forks_of_reuse differ.2
    obtain ⟨secret, sourceBlinding, -, slope, -, -, opens, -⟩ := squares _ _ _ _ _ _ member
      (SquareProof.squareOf_member lawful member _ _)
      (SquareProof.prove_valid lawful _ member _ _ _)
      (SquareProof.prove_valid lawful _ member _ _ _) forks
      ((SquareProof.verify_prove lawful _ member _ _ _).mpr (.inr rfl))
      ((SquareProof.verify_prove lawful _ member _ _ _).mpr (.inr rfl))
    exact ⟨_, _, secret, sourceBlinding, forks, slope, opens⟩
  · exact ⟨_, sames .empty _ _ _ member (lawful.commit_member ⟨2⟩ ⟨4⟩)
      (SameProof.prove_valid _ _ _ _ _)
      ((SameProof.verify_prove lawful _ reduced.1 reduced.1 reduced.2).mpr rfl) _ _ rfl⟩

end CommitmentKey

end CommitScript

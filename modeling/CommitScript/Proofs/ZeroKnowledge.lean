import CommitScript.Proofs.ProveVerify
import CommitScript.Proofs.ResidueKeys

/-! # Proofs hide their witness

With the challenge given beforehand, a proof is the image of the nonces. The nonces go one to one
onto the proofs that hold with that challenge, so each of these is as likely as any other. Which
proofs hold depends on the statement alone, so nothing of the witness is left in a proof.
-/

namespace CommitScript

variable {Element : Type}

namespace ScalarField

/-- All scalars that are reduced. -/
def scalars (field : ScalarField) : Finset Scalar :=
  (Finset.range field.modulus).map ⟨Scalar.mk, fun _ _ same => congrArg Scalar.value same⟩

variable {field : ScalarField}

theorem mem_scalars {a : Scalar} : a ∈ field.scalars ↔ field.Reduced a := by
  simp only [scalars, Finset.mem_map, Finset.mem_range]
  constructor
  · rintro ⟨n, small, rfl⟩
    exact small
  · intro reduced
    exact ⟨a.value, reduced, rfl⟩

theorem scalars_nonempty : field.scalars.Nonempty :=
  ⟨field.zero, mem_scalars.mpr field.reduced_zero⟩

protected theorem add_comm (a b : Scalar) : field.add a b = field.add b a := by
  rw [add, add, Nat.add_comm]

/-- What has been taken away can be added again. -/
theorem add_sub_self {a b : Scalar} (ha : field.Reduced a) (hb : field.Reduced b) :
    field.add b (field.sub a b) = a := by
  rw [← residue_inj (field.reduced_add _ _) ha, residue_add, residue_sub field a hb]
  ring

protected theorem add_left_inj {a b c : Scalar} (hb : field.Reduced b) (hc : field.Reduced c) :
    field.add a b = field.add a c ↔ b = c := by
  rw [← residue_inj (field.reduced_add _ _) (field.reduced_add _ _), residue_add, residue_add,
    add_right_inj, residue_inj hb hc]

end ScalarField

section Uniform

variable {α β : Type} {f g : α → β} {s : Finset α} {t : Set β}

/-- What goes one to one onto a set hits each of its members with the same probability. -/
theorem map_uniform_apply (nonempty : s.Nonempty) (bijection : Set.BijOn f s t) (b : β)
    [Decidable (b ∈ t)] :
    (PMF.uniformOfFinset s nonempty).map f b = if b ∈ t then (s.card : ENNReal)⁻¹ else 0 := by
  classical
  rw [PMF.map_apply]
  by_cases inside : b ∈ t
  · obtain ⟨a, member, rfl⟩ := bijection.surjOn inside
    rw [if_pos inside, tsum_eq_single a, if_pos rfl, PMF.uniformOfFinset_apply_of_mem _ member]
    intro a' different
    by_cases member' : a' ∈ s
    · rw [if_neg fun same => different (bijection.injOn member' member same.symm)]
    · rw [PMF.uniformOfFinset_apply_of_notMem _ member', ite_self]
  · rw [if_neg inside, ENNReal.tsum_eq_zero]
    intro a
    by_cases member : a ∈ s
    · have differ : b ≠ f a := by
        rintro rfl
        exact inside (bijection.mapsTo member)
      exact if_neg differ
    · rw [PMF.uniformOfFinset_apply_of_notMem _ member, ite_self]

theorem map_uniform_eq (nonempty : s.Nonempty) (bijection : Set.BijOn f s t)
    (bijection' : Set.BijOn g s t) :
    (PMF.uniformOfFinset s nonempty).map f = (PMF.uniformOfFinset s nonempty).map g := by
  classical
  refine PMF.ext fun b => ?_
  rw [map_uniform_apply nonempty bijection, map_uniform_apply nonempty bijection']

end Uniform

variable {key : CommitmentKey Element}

namespace ValueProof

/-- The proofs of a statement that hold with a given challenge. -/
def accepted (key : CommitmentKey Element) (commitment : Element) (value challenge : Scalar) :
    Set (ValueProof Element) :=
  { proof | proof.Valid key ∧ proof.challenge = challenge ∧ Holds key commitment value proof }

/-- The nonce of a proof can be found again, if the blinding is known. -/
theorem respond_sub (lawful : key.Lawful) {value blinding : Scalar} {proof : ValueProof Element}
    (valid : proof.Valid key)
    (holds : Holds key (key.commit value blinding) value proof) :
    respond key blinding
        (key.field.sub proof.response (key.field.mul proof.challenge blinding)) proof.challenge =
      proof := by
  have product := key.field.reduced_mul proof.challenge blinding
  rw [holds_iff lawful (lawful.commit_member _ _) value valid.nonceCommitment,
    lawful.log_commit] at holds
  have nonce : commitNonce key
      (key.field.sub proof.response (key.field.mul proof.challenge blinding)) =
        proof.nonceCommitment := by
    rw [commitNonce, ← lawful.log_inj (lawful.scale_member _ lawful.base_member)
      valid.nonceCommitment, lawful.log_scale _ lawful.base_member,
      ScalarField.residue_sub key.field _ product, ScalarField.residue_mul]
    linear_combination holds
  rw [respond, nonce, ScalarField.add_comm, ScalarField.add_sub_self valid.response product]

/-- The nonces go one to one onto the proofs that hold. -/
theorem bijOn_respond (lawful : key.Lawful) (value blinding : Scalar) {challenge : Scalar}
    (reduced : key.field.Reduced challenge) :
    Set.BijOn (fun nonce => respond key blinding nonce challenge) key.field.scalars
      (accepted key (key.commit value blinding) value challenge) := by
  refine ⟨fun nonce _ => ?_, fun nonce member nonce' member' same => ?_, fun proof holds => ?_⟩
  · exact ⟨respond_valid lawful blinding nonce reduced, rfl,
      (holds_respond lawful (lawful.commit_member _ _) value blinding nonce reduced).mpr
        (.inr rfl)⟩
  · have responses := congrArg response same
    simp only [respond] at responses
    rw [ScalarField.add_comm nonce, ScalarField.add_comm nonce'] at responses
    exact (ScalarField.add_left_inj (ScalarField.mem_scalars.mp member)
      (ScalarField.mem_scalars.mp member')).mp responses
  · obtain ⟨valid, rfl, holds⟩ := holds
    exact ⟨_, ScalarField.mem_scalars.mpr (key.field.reduced_sub _ _),
      respond_sub lawful valid holds⟩

end ValueProof

namespace SquareProof

/-- The proofs of a statement that hold with a given challenge. -/
def accepted (key : CommitmentKey Element) (source squared : Element) (challenge : Scalar) :
    Set (SquareProof Element) :=
  { proof | proof.Valid key ∧ proof.challenge = challenge ∧ Holds key source squared proof }

/-- What a proof draws behind the blinding of the new commitment: the nonces for the secret, for
    the blinding of the source and for that of the new commitment. -/
def nonces (field : ScalarField) : Finset (Scalar × Scalar × Scalar) :=
  field.scalars ×ˢ field.scalars ×ˢ field.scalars

theorem nonces_nonempty {field : ScalarField} : (nonces field).Nonempty :=
  ScalarField.scalars_nonempty.product
    (ScalarField.scalars_nonempty.product ScalarField.scalars_nonempty)

/-- The proof that answers a challenge, made of three nonces and the blindings of both
    commitments. -/
def respondWith (key : CommitmentKey Element) (source : Element)
    (secret blinding squareBlinding challenge : Scalar) (drawn : Scalar × Scalar × Scalar) :
    SquareProof Element :=
  respond key source secret blinding ⟨squareBlinding, drawn.1, drawn.2.1, drawn.2.2⟩ challenge

theorem mem_nonces {field : ScalarField} {drawn : Scalar × Scalar × Scalar} :
    drawn ∈ nonces field ↔
      field.Reduced drawn.1 ∧ field.Reduced drawn.2.1 ∧ field.Reduced drawn.2.2 := by
  simp only [nonces, Finset.mem_product, ScalarField.mem_scalars]

/-- The nonces of a proof can be found again, if the witness is known. -/
theorem respondWith_sub (lawful : key.Lawful) {secret blinding squareBlinding : Scalar}
    {proof : SquareProof Element} (valid : proof.Valid key)
    (holds : Holds key (key.commit secret blinding)
      (key.commitWith (key.commit secret blinding) secret squareBlinding) proof) :
    respondWith key (key.commit secret blinding) secret blinding squareBlinding proof.challenge
        (key.field.sub proof.secretResponse (key.field.mul proof.challenge secret),
          key.field.sub proof.sourceResponse (key.field.mul proof.challenge blinding),
          key.field.sub proof.squareResponse (key.field.mul proof.challenge squareBlinding)) =
      proof := by
  have member := lawful.commit_member secret blinding
  have product (a : Scalar) := key.field.reduced_mul proof.challenge a
  obtain ⟨first, second⟩ :=
    (holds_iff lawful member (lawful.commitWith_member member _ _) valid).mp holds
  rw [lawful.log_commit] at first
  rw [lawful.log_commitWith member, lawful.log_commit] at second
  have source : key.commit
      (key.field.sub proof.secretResponse (key.field.mul proof.challenge secret))
      (key.field.sub proof.sourceResponse (key.field.mul proof.challenge blinding)) =
        proof.sourceCommitment := by
    rw [← lawful.log_inj (lawful.commit_member _ _) valid.sourceCommitment, lawful.log_commit,
      ScalarField.residue_sub key.field _ (product _),
      ScalarField.residue_sub key.field _ (product _), ScalarField.residue_mul,
      ScalarField.residue_mul]
    linear_combination -first
  have square : key.commitWith (key.commit secret blinding)
      (key.field.sub proof.secretResponse (key.field.mul proof.challenge secret))
      (key.field.sub proof.squareResponse (key.field.mul proof.challenge squareBlinding)) =
        proof.squareCommitment := by
    rw [← lawful.log_inj (lawful.commitWith_member member _ _) valid.squareCommitment,
      lawful.log_commitWith member, lawful.log_commit,
      ScalarField.residue_sub key.field _ (product _),
      ScalarField.residue_sub key.field _ (product _), ScalarField.residue_mul,
      ScalarField.residue_mul]
    linear_combination -second
  simp only [respondWith, respond, commitSource, commitSquare, source, square,
    ScalarField.add_sub_self valid.secretResponse (product _),
    ScalarField.add_sub_self valid.sourceResponse (product _),
    ScalarField.add_sub_self valid.squareResponse (product _)]

/-- The nonces go one to one onto the proofs that hold. -/
theorem bijOn_respondWith (lawful : key.Lawful) (secret blinding squareBlinding : Scalar)
    {challenge : Scalar} (reduced : key.field.Reduced challenge) :
    Set.BijOn
      (respondWith key (key.commit secret blinding) secret blinding squareBlinding challenge)
      (nonces key.field)
      (accepted key (key.commit secret blinding)
        (key.commitWith (key.commit secret blinding) secret squareBlinding) challenge) := by
  have member := lawful.commit_member secret blinding
  refine ⟨fun drawn _ => ?_, fun drawn inside drawn' inside' same => ?_, fun proof holds => ?_⟩
  · exact ⟨respond_valid lawful member secret blinding _ reduced, rfl,
      (holds_respond lawful member secret blinding _ reduced).mpr (.inr rfl)⟩
  · obtain ⟨secretNonce, sourceNonce, squareNonce⟩ := mem_nonces.mp inside
    obtain ⟨secretNonce', sourceNonce', squareNonce'⟩ := mem_nonces.mp inside'
    have secrets := (ScalarField.add_left_inj secretNonce secretNonce').mp
      (congrArg secretResponse same)
    have sources := (ScalarField.add_left_inj sourceNonce sourceNonce').mp
      (congrArg sourceResponse same)
    have squares := (ScalarField.add_left_inj squareNonce squareNonce').mp
      (congrArg squareResponse same)
    exact Prod.ext secrets (Prod.ext sources squares)
  · obtain ⟨valid, rfl, holds⟩ := holds
    exact ⟨_, mem_nonces.mpr ⟨key.field.reduced_sub _ _, key.field.reduced_sub _ _,
      key.field.reduced_sub _ _⟩, respondWith_sub lawful valid holds⟩

end SquareProof

namespace CommitmentKey

/-- For a challenge that is given beforehand, the proofs of a true statement are the answers of
    its prover, each of exactly one choice of the nonces. So with uniform nonces all witnesses of
    one statement give the same distribution of proofs. A prover answers the challenge of its
    history in just this way. -/
theorem proofs_hide_witnesses (lawful : key.Lawful) {challenge : Scalar}
    (reduced : key.field.Reduced challenge) :
    (∀ value blinding,
      Set.BijOn (fun nonce => ValueProof.respond key blinding nonce challenge) key.field.scalars
        (ValueProof.accepted key (key.commit value blinding) value challenge)) ∧
    (∀ secret blinding squareBlinding,
      Set.BijOn
        (SquareProof.respondWith key (key.commit secret blinding) secret blinding squareBlinding
          challenge)
        (SquareProof.nonces key.field)
        (SquareProof.accepted key (key.commit secret blinding)
          (key.commitWith (key.commit secret blinding) secret squareBlinding) challenge)) ∧
    (∀ value blinding blinding', key.commit value blinding' = key.commit value blinding →
      (PMF.uniformOfFinset key.field.scalars ScalarField.scalars_nonempty).map
          (fun nonce => ValueProof.respond key blinding' nonce challenge) =
        (PMF.uniformOfFinset key.field.scalars ScalarField.scalars_nonempty).map
          fun nonce => ValueProof.respond key blinding nonce challenge) ∧
    (∀ source squared secret blinding squareBlinding secret' blinding' squareBlinding',
      key.commit secret blinding = source → key.commitWith source secret squareBlinding = squared →
      key.commit secret' blinding' = source →
      key.commitWith source secret' squareBlinding' = squared →
      (PMF.uniformOfFinset (SquareProof.nonces key.field) SquareProof.nonces_nonempty).map
          (SquareProof.respondWith key source secret' blinding' squareBlinding' challenge) =
        (PMF.uniformOfFinset (SquareProof.nonces key.field) SquareProof.nonces_nonempty).map
          (SquareProof.respondWith key source secret blinding squareBlinding challenge)) ∧
    (∀ history commitment value blinding nonce,
      let proof := (ValueProof.prove key history commitment value blinding nonce).1
      proof = ValueProof.respond key blinding nonce proof.challenge) ∧
    ∀ history source secret blinding squareBlinding drawn,
      let nonces : SquareNonces := ⟨squareBlinding, drawn.1, drawn.2.1, drawn.2.2⟩
      let proof := (SquareProof.prove key history source secret blinding nonces).1.proof
      proof = SquareProof.respondWith key source secret blinding squareBlinding proof.challenge
        drawn := by
  refine ⟨?_, ?_, ?_, ?_, fun _ _ _ _ _ => rfl, fun _ _ _ _ _ _ => rfl⟩
  · exact fun value blinding => ValueProof.bijOn_respond lawful value blinding reduced
  · exact fun secret blinding squareBlinding =>
      SquareProof.bijOn_respondWith lawful secret blinding squareBlinding reduced
  · intro value blinding blinding' same
    have bijection := ValueProof.bijOn_respond lawful value blinding reduced
    have bijection' := ValueProof.bijOn_respond lawful value blinding' reduced
    rw [same] at bijection'
    exact map_uniform_eq _ bijection' bijection
  · rintro source squared secret blinding squareBlinding secret' blinding' squareBlinding' rfl rfl
      sameSource sameSquared
    have bijection :=
      SquareProof.bijOn_respondWith lawful secret blinding squareBlinding reduced
    have bijection' :=
      SquareProof.bijOn_respondWith lawful secret' blinding' squareBlinding' reduced
    rw [sameSource, sameSquared] at bijection'
    exact map_uniform_eq _ bijection' bijection

open ResidueGroup in
/-- The residue 18 hides five and six alike, and nine hides the square of both with eighteen as
    generator. -/
theorem proofs_hide_witnesses_small :
    (small.keyOf ⟨3⟩).field.Reduced ⟨5⟩ ∧
      Set.BijOn (fun nonce => ValueProof.respond (small.keyOf ⟨3⟩) ⟨7⟩ nonce ⟨5⟩)
        (small.keyOf ⟨3⟩).field.scalars
        (ValueProof.accepted (small.keyOf ⟨3⟩) ((small.keyOf ⟨3⟩).commit ⟨5⟩ ⟨7⟩) ⟨5⟩ ⟨5⟩) ∧
      (PMF.uniformOfFinset (SquareProof.nonces (small.keyOf ⟨3⟩).field)
          SquareProof.nonces_nonempty).map
          (SquareProof.respondWith (small.keyOf ⟨3⟩) ⟨18⟩ ⟨6⟩ ⟨0⟩ ⟨3⟩ ⟨5⟩) =
        (PMF.uniformOfFinset (SquareProof.nonces (small.keyOf ⟨3⟩).field)
          SquareProof.nonces_nonempty).map
          (SquareProof.respondWith (small.keyOf ⟨3⟩) ⟨18⟩ ⟨5⟩ ⟨7⟩ ⟨1⟩ ⟨5⟩) := by
  have reduced : (small.keyOf ⟨3⟩).field.Reduced ⟨5⟩ := by
    unfold ScalarField.Reduced
    decide
  obtain ⟨values, -, -, squares, -⟩ := proofs_hide_witnesses small_lawful reduced
  exact ⟨reduced, values ⟨5⟩ ⟨7⟩, squares ⟨18⟩ ⟨9⟩ ⟨5⟩ ⟨7⟩ ⟨1⟩ ⟨6⟩ ⟨0⟩ ⟨3⟩ (by decide) (by decide)
    (by decide) (by decide)⟩

end CommitmentKey

end CommitScript

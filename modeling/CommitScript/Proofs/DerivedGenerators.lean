import CommitScript.Proofs.ResidueKeys

/-! # Derived generators hide and bind

A second generator that was derived for a label is neither the identity nor the first one. Over a
group of prime order both of them generate, so a blinding takes every commitment to every element
just once, and two openings of one commitment give away how the generators are related.
-/

namespace CommitScript

open Success

variable {Element : Type}

namespace CommitmentKey

theorem create_eq_error [DecidableEq Element] {group : GroupOps Element} {label : Bytes}
    (large : 1 < group.order) {fault : AlgebraError} :
    create group label = .error fault ↔ group.secondGenerator label = .error fault := by
  rw [create, dif_pos large, except_bind_eq_error]
  apply or_iff_left
  rintro ⟨base, -, ends⟩
  cases ends

namespace Lawful

variable {key : CommitmentKey Element} (lawful : key.Lawful)
include lawful

theorem commit_eq_iff {s t s' t' : Scalar} :
    key.commit s t = key.commit s' t' ↔
      key.field.residue s - key.field.residue s' =
        (key.field.residue t' - key.field.residue t) * lawful.log key.blindingBase := by
  rw [← lawful.log_inj (lawful.commit_member _ _) (lawful.commit_member _ _), lawful.log_commit,
    lawful.log_commit]
  constructor
  · intro same
    linear_combination same
  · intro slope
    linear_combination slope

/-- Under one secret each element is the commitment of one blinding. -/
theorem bijOn_commit (secret : Scalar) :
    Set.BijOn (key.commit secret) {blinding | key.field.Reduced blinding}
      {a | key.group.Member a} := by
  have := lawful.prime
  refine ⟨fun blinding _ => lawful.commit_member secret blinding, ?_, ?_⟩
  · intro blinding reduced blinding' reduced' same
    rw [lawful.commit_eq_iff, sub_self, eq_comm, mul_eq_zero] at same
    have apart := same.resolve_right lawful.log_base_ne
    rw [sub_eq_zero, ScalarField.residue_inj reduced' reduced] at apart
    exact apart.symm
  · intro a member
    -- The blinding is the quotient of what the secret leaves of the logarithm.
    let blinding := key.field.ofResidue
      ((lawful.log a - key.field.residue secret) / lawful.log key.blindingBase)
    refine ⟨blinding, ScalarField.reduced_ofResidue _, ?_⟩
    rw [← lawful.log_inj (lawful.commit_member _ _) member, lawful.log_commit,
      ScalarField.residue_ofResidue, div_mul_cancel₀ _ lawful.log_base_ne, add_sub_cancel]

/-- Two openings of one commitment differ in both parts, and their differences give the second
    generator as a multiple of the first. -/
theorem base_of_openings {s t s' t' : Scalar} (reduced : key.field.Reduced s)
    (reducedBlinding : key.field.Reduced t) (reduced' : key.field.Reduced s')
    (reducedBlinding' : key.field.Reduced t') (differ : (s, t) ≠ (s', t'))
    (same : key.commit s t = key.commit s' t') :
    s ≠ s' ∧ t ≠ t' ∧
      ∃ inverse, key.field.inverse (key.field.sub t' t) = .ok inverse ∧
        key.blindingBase =
          key.scale (key.field.mul (key.field.sub s s') inverse) key.group.generator := by
  have := lawful.prime
  have slope := lawful.commit_eq_iff.mp same
  have blindings : t ≠ t' := by
    rintro rfl
    rw [sub_self, zero_mul, sub_eq_zero, ScalarField.residue_inj reduced reduced'] at slope
    exact differ (congrArg (·, t) slope)
  have secrets : s ≠ s' := by
    rintro rfl
    rw [sub_self, eq_comm, mul_eq_zero] at slope
    have apart := slope.resolve_right lawful.log_base_ne
    rw [sub_eq_zero, ScalarField.residue_inj reducedBlinding' reducedBlinding] at apart
    exact blindings apart.symm
  have step : key.field.sub t' t ≠ key.field.zero := by
    rw [ne_eq, ← ScalarField.residue_eq_zero (key.field.reduced_sub _ _),
      ScalarField.residue_sub _ _ reducedBlinding, sub_eq_zero,
      ScalarField.residue_inj reducedBlinding' reducedBlinding]
    exact blindings.symm
  obtain ⟨inverse, inverts, cancels⟩ :=
    ScalarField.exists_inverse this.out (key.field.reduced_sub _ _) step
  rw [ScalarField.residue_sub _ _ reducedBlinding] at cancels
  have member := lawful.scale_member (key.field.mul (key.field.sub s s') inverse)
    lawful.group.generator_member
  refine ⟨secrets, blindings, inverse, inverts, ?_⟩
  rw [← lawful.log_inj lawful.base_member member,
    lawful.log_scale _ lawful.group.generator_member, lawful.log_generator, mul_one,
    ScalarField.residue_mul, ScalarField.residue_sub _ _ reduced']
  linear_combination -lawful.log key.blindingBase * cancels - key.field.residue inverse * slope

end Lawful

variable [DecidableEq Element]

/-- A key over a group of prime order has as its second generator what the first sample gives that
    is not rejected, and there is no key when all 256 samples are. Commitments under such a key
    hide perfectly: for each secret the blindings correspond to the elements. They bind as far as
    the generators are unrelated: two openings of one commitment differ in both parts, and their
    differences make the second generator from the first. -/
theorem derived_generators_hide_and_bind {group : GroupOps Element} (laws : group.PrimeOrder)
    (label : Bytes) :
    (∀ fault, create group label = .error fault ↔
      fault = .noGenerator 256 ∧ ∀ number < 256, group.Rejects (group.sample label number)) ∧
    ∀ key, create group label = .ok key →
      key.group = group ∧ key.field.modulus = group.order ∧
      (∃ number < 256, group.ofSample? (group.sample label number) = some key.blindingBase ∧
        key.blindingBase ≠ group.identity ∧ key.blindingBase ≠ group.generator ∧
        ∀ earlier < number, group.Rejects (group.sample label earlier)) ∧
      (∀ secret, Set.BijOn (key.commit secret) {blinding | key.field.Reduced blinding}
        {a | group.Member a}) ∧
      ∀ s t s' t', key.field.Reduced s → key.field.Reduced t → key.field.Reduced s' →
        key.field.Reduced t' → (s, t) ≠ (s', t') → key.commit s t = key.commit s' t' →
        s ≠ s' ∧ t ≠ t' ∧
          ∃ inverse, key.field.inverse (key.field.sub t' t) = .ok inverse ∧
            key.blindingBase =
              key.scale (key.field.mul (key.field.sub s s') inverse) group.generator := by
  constructor
  · intro fault
    rw [create_eq_error laws.prime.one_lt, GroupOps.secondGenerator_eq_error]
    rfl
  · intro key made
    have lawful := lawful_of_create laws made
    obtain ⟨-, rfl, -, derived⟩ := create_eq_ok.mp made
    refine ⟨rfl, key.modulus_eq, GroupOps.secondGenerator_eq_ok.mp derived, lawful.bijOn_commit, ?_⟩
    intro s t s' t' reduced reducedBlinding reduced' reducedBlinding' differ same
    exact lawful.base_of_openings reduced reducedBlinding reduced' reducedBlinding' differ same

open ResidueGroup in
omit [DecidableEq Element] in
/-- Whoever opens the second generator itself without any blinding knows its logarithm. -/
theorem derived_generators_hide_and_bind_small :
    create small.ops (Bytes.ofString defaultLabel) = .ok smallDefault ∧
      Set.BijOn (smallDefault.commit ⟨3⟩) {blinding | smallDefault.field.Reduced blinding}
        {a | small.ops.Member a} ∧
      smallDefault.commit ⟨5⟩ ⟨0⟩ = smallDefault.commit ⟨0⟩ ⟨1⟩ ∧
      ∃ inverse, smallDefault.field.inverse ⟨1⟩ = .ok inverse ∧
        smallDefault.blindingBase =
          smallDefault.scale (smallDefault.field.mul ⟨5⟩ inverse) small.ops.generator := by
  obtain ⟨-, made⟩ :=
    derived_generators_hide_and_bind small_lawful.group (Bytes.ofString defaultLabel)
  obtain ⟨-, -, -, hides, binds⟩ := made _ small_created
  have reduced : ∀ k < 11, smallDefault.field.Reduced ⟨k⟩ := fun _ below => below
  have same : smallDefault.commit ⟨5⟩ ⟨0⟩ = smallDefault.commit ⟨0⟩ ⟨1⟩ := by decide
  obtain ⟨-, -, relation⟩ := binds ⟨5⟩ ⟨0⟩ ⟨0⟩ ⟨1⟩ (reduced 5 (by decide)) (reduced 0 (by decide))
    (reduced 0 (by decide)) (reduced 1 (by decide)) (by decide) same
  exact ⟨small_created, hides ⟨3⟩, same, relation⟩

end CommitmentKey

end CommitScript

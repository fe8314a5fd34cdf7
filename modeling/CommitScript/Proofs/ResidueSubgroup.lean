import CommitScript.Group.Kind
import CommitScript.Proofs.LinearCommitments
import CommitScript.Proofs.ResidueKeys

/-! # The subgroup of a prime modulus

The genuine residues are those whose power to the order is one, for any modulus that is accepted.
Whatever gives a residue gives a genuine one, and for a prime modulus they are a commutative group.
Nothing more is asked of the order, so commitments are linear even where it is not prime.
-/

namespace CommitScript.ResidueGroup

variable {group : ResidueGroup}

/-- The groups of residues are just those that accepted parameters make. -/
theorem ofParameters_eq_ok {modulus generator : Nat} :
    ofParameters modulus generator = .ok group ↔
      group.modulus = modulus ∧ group.generator = generator := by
  constructor
  · intro made
    unfold ofParameters at made
    split at made
    · split at made
      · split at made
        · cases made
          exact ⟨rfl, rfl⟩
        · cases made
      · cases made
    · cases made
  · rintro ⟨rfl, rfl⟩
    rw [ofParameters, dif_pos ⟨group.modulus_large, group.modulus_odd⟩,
      dif_pos ⟨group.generator_large, group.generator_small⟩, dif_pos group.generator_inside]

theorem member_iff_power (a : Residue) :
    group.ops.Member a ↔
      1 ≤ a.value ∧ a.value < group.modulus ∧ a.value ^ group.order % group.modulus = 1 := by
  rw [member_iff, ← power_eq_one_iff, Modular.power_eq _ _ group.modulus_pos]
  constructor
  · rintro ⟨small, inside⟩
    have nonzero : a.value ≠ 0 := by
      intro zero
      rw [zero, Nat.zero_pow group.order_pos, Nat.zero_mod] at inside
      exact absurd inside (by decide)
    exact ⟨Nat.one_le_iff_ne_zero.mpr nonzero, small, inside⟩
  · rintro ⟨-, small, inside⟩
    exact ⟨small, inside⟩

theorem sample_ne_identity {bytes : Bytes} {a : Residue}
    (sampled : group.ops.ofSample? bytes = some a) : a ≠ group.ops.identity := by
  simp only [ops, ofSample?] at sampled
  split at sampled
  · cases sampled
  · split at sampled
    · cases sampled
    · next ne =>
      cases sampled
      intro one
      exact ne (congrArg Residue.value one)

/-- Accepted parameters with a prime modulus make a commutative group of the residues below the
    modulus whose power to the order is one. The generator, the identity, and all that decoding and
    sampling give are in it, and no sample gives the identity. Multiples are repeated sums, however
    large the factor, and they are linear in the factor modulo the order. So the commitments of
    every key that is made of such a group are linear in their openings. The standard group is one
    of these, as far as its modulus is prime. -/
theorem residues_form_a_group :
    ofParameters prime2048 4 = .ok standard2048 ∧
    ∀ modulus generator group, ofParameters modulus generator = .ok group → modulus.Prime →
      group.ops.order = (modulus - 1) / 2 ∧
      (∀ a, group.ops.Member a ↔
        1 ≤ a.value ∧ a.value < modulus ∧ a.value ^ ((modulus - 1) / 2) % modulus = 1) ∧
      group.ops.Member group.ops.generator ∧
      group.ops.Member group.ops.identity ∧
      (∀ bytes a, group.ops.decode bytes = .ok a → group.ops.Member a) ∧
      (∀ bytes a, group.ops.ofSample? bytes = some a →
        group.ops.Member a ∧ a ≠ group.ops.identity) ∧
      (∃ _ : AddCommGroup group.ops.Members, group.ops.Realizes) ∧
      (∀ field : ScalarField, field.modulus = group.ops.order → group.ops.Linear field) ∧
      ∀ label key, CommitmentKey.create group.ops label = .ok key → key.Homomorphic := by
  constructor
  · exact ofParameters_eq_ok.mpr ⟨rfl, rfl⟩
  · intro modulus generator group made prime
    obtain ⟨rfl, rfl⟩ := ofParameters_eq_ok.mp made
    have laws := group.laws prime
    refine ⟨rfl, member_iff_power, laws.generator_member, laws.identity_member, ?_, ?_,
      ⟨laws.addCommGroup, laws.realizes⟩, fun field same => laws.linear same, ?_⟩
    · intro bytes a decoded
      rw [GroupOps.Member, group.ops_canonical bytes a decoded, decoded]
    · intro bytes a sampled
      exact ⟨laws.sample_member sampled, sample_ne_identity sampled⟩
    · intro label key created
      obtain ⟨-, same, -, derived⟩ := CommitmentKey.create_eq_ok.mp created
      have member := (laws.secondGenerator_member derived).1
      rw [← same] at laws member
      exact CommitmentKey.homomorphic laws member

/-- Twice a commitment to five under the blinding seven. -/
theorem residues_form_a_group_small :
    ofParameters 23 2 = .ok small ∧ (23 : Nat).Prime ∧ small.ops.Member ⟨13⟩ ∧
      CommitmentKey.create small.ops (Bytes.ofString CommitmentKey.defaultLabel) =
        .ok smallDefault ∧
      smallDefault.scale ⟨2⟩ (smallDefault.commit ⟨5⟩ ⟨7⟩) = smallDefault.commit ⟨10⟩ ⟨3⟩ := by
  have made : ofParameters 23 2 = .ok small := ofParameters_eq_ok.mpr ⟨rfl, rfl⟩
  have prime : (23 : Nat).Prime := by norm_num
  obtain ⟨-, members, -, -, -, -, -, -, keys⟩ := residues_form_a_group.2 23 2 small made prime
  exact ⟨made, prime, (members ⟨13⟩).mpr (by decide), small_created,
    (keys _ _ small_created).scale ⟨2⟩ ⟨5⟩ ⟨7⟩⟩

end CommitScript.ResidueGroup

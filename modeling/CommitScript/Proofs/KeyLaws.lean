import CommitScript.Commitment.Key
import CommitScript.Proofs.GroupLaws
import CommitScript.Proofs.SampleStreams
import CommitScript.Proofs.ScalarResidue
import CommitScript.Proofs.Success

/-! # The laws of a commitment key

A key over a group of prime order, whose second generator is an element other than the
identity. Every key that is made of such a group is one. Under its logarithms a commitment is
the secret plus the blinding times the logarithm of the second generator.
-/

namespace CommitScript

open Success

variable {Element : Type}

/-- A second generator comes from a sample, so it is an element, and it is not the identity. -/
theorem GroupOps.Laws.secondGenerator_member [DecidableEq Element] {group : GroupOps Element}
    (laws : group.Laws) {label : Bytes} {a : Element}
    (h : group.secondGenerator label = .ok a) :
    group.Member a ∧ a ≠ group.identity := by
  obtain ⟨number, -, sampled, ne, -⟩ := GroupOps.secondGenerator_eq_ok.mp h
  exact ⟨laws.sample_member sampled, ne⟩

namespace CommitmentKey

/-- What a key promises that is made of a group of prime order. -/
structure Lawful (key : CommitmentKey Element) : Prop where
  group : key.group.PrimeOrder
  base_member : key.group.Member key.blindingBase
  base_ne : key.blindingBase ≠ key.group.identity

/-- A key is made of a group and a label exactly when the label gives a second generator. -/
theorem create_eq_ok [DecidableEq Element] {group : GroupOps Element} {label : Bytes}
    {key : CommitmentKey Element} :
    create group label = .ok key ↔
      1 < group.order ∧ key.group = group ∧ key.label = label ∧
        group.secondGenerator label = .ok key.blindingBase := by
  unfold create
  constructor
  · intro made
    split at made
    · next large =>
      obtain ⟨base, derived, same⟩ := except_bind_eq_ok.mp made
      cases same
      exact ⟨large, rfl, rfl, derived⟩
    · cases made
  · rintro ⟨large, rfl, rfl, derived⟩
    obtain ⟨group, ⟨modulus, one_lt⟩, label, base, same⟩ := key
    obtain rfl : modulus = group.order := same
    rw [dif_pos large, derived]
    rfl

/-- Making a key of a group of prime order gives a lawful key, whatever the label. -/
theorem lawful_of_create [DecidableEq Element] {group : GroupOps Element} {label : Bytes}
    {key : CommitmentKey Element} (laws : group.PrimeOrder) (made : create group label = .ok key) :
    key.Lawful := by
  obtain ⟨-, rfl, -, derived⟩ := create_eq_ok.mp made
  obtain ⟨member, ne⟩ := laws.secondGenerator_member derived
  exact ⟨laws, member, ne⟩

variable {key : CommitmentKey Element}

namespace Lawful

theorem prime (lawful : key.Lawful) : Fact key.field.modulus.Prime :=
  ⟨key.modulus_eq ▸ lawful.group.prime⟩

/-- The logarithm of an element to the first generator. -/
noncomputable def log (lawful : key.Lawful) (a : Element) : ZMod key.field.modulus :=
  lawful.group.log key.modulus_eq.symm a

variable (lawful : key.Lawful)
include lawful

theorem log_inj {a b : Element} (ha : key.group.Member a) (hb : key.group.Member b) :
    lawful.log a = lawful.log b ↔ a = b :=
  lawful.group.log_inj _ ha hb

@[simp]
theorem log_generator : lawful.log key.group.generator = 1 :=
  lawful.group.log_generator _

@[simp]
theorem log_identity : lawful.log key.group.identity = 0 :=
  lawful.group.log_identity _

theorem log_base_ne : lawful.log key.blindingBase ≠ 0 := by
  intro h
  rw [← lawful.log_identity] at h
  exact lawful.base_ne ((lawful.log_inj lawful.base_member lawful.group.identity_member).mp h)

theorem log_add {a b : Element} (ha : key.group.Member a) (hb : key.group.Member b) :
    lawful.log (key.group.add a b) = lawful.log a + lawful.log b :=
  lawful.group.log_add _ ha hb

theorem log_sub {a b : Element} (ha : key.group.Member a) (hb : key.group.Member b) :
    lawful.log (key.group.sub a b) = lawful.log a - lawful.log b :=
  lawful.group.log_sub _ ha hb

theorem scale_member (k : Scalar) {a : Element} (h : key.group.Member a) :
    key.group.Member (key.scale k a) :=
  lawful.group.multiple_member k.value h

theorem log_scale (k : Scalar) {a : Element} (h : key.group.Member a) :
    lawful.log (key.scale k a) = key.field.residue k * lawful.log a :=
  lawful.group.log_multiple _ k.value h

theorem commitWith_member {base : Element} (h : key.group.Member base) (secret blinding : Scalar) :
    key.group.Member (key.commitWith base secret blinding) :=
  lawful.group.add_member (lawful.scale_member secret h)
    (lawful.scale_member blinding lawful.base_member)

theorem commit_member (secret blinding : Scalar) : key.group.Member (key.commit secret blinding) :=
  lawful.commitWith_member lawful.group.generator_member secret blinding

theorem log_commitWith {base : Element} (h : key.group.Member base) (secret blinding : Scalar) :
    lawful.log (key.commitWith base secret blinding) =
      key.field.residue secret * lawful.log base +
        key.field.residue blinding * lawful.log key.blindingBase := by
  rw [commitWith, lawful.log_add (lawful.scale_member secret h)
    (lawful.scale_member blinding lawful.base_member), lawful.log_scale secret h,
    lawful.log_scale blinding lawful.base_member]

theorem log_commit (secret blinding : Scalar) :
    lawful.log (key.commit secret blinding) =
      key.field.residue secret + key.field.residue blinding * lawful.log key.blindingBase := by
  rw [commit, lawful.log_commitWith lawful.group.generator_member, log_generator, mul_one]

end Lawful

end CommitmentKey

end CommitScript

import CommitScript.Proofs.KeyLaws

/-! # Linear commitments

Where a group keeps its laws, the residues modulo its order act on the genuine elements. For that
the order need not be prime. So a multiple is linear in the scalar and in the element, a
commitment is linear in its opening, and what is done to commitments is done to what they hide.
-/

namespace CommitScript

variable {Element : Type}

namespace GroupOps

/-- The operations are those of a commutative group of the genuine elements, so none of them
    leaves these, and a multiple is the element added to itself that many times. -/
structure Realizes (group : GroupOps Element) [AddCommGroup group.Members] : Prop where
  identity : ((0 : group.Members) : Element) = group.identity
  add : ∀ a b : group.Members, ((a + b : group.Members) : Element) = group.add a b
  negate : ∀ a : group.Members, ((-a : group.Members) : Element) = group.negate a
  sub : ∀ a b : group.Members, ((a - b : group.Members) : Element) = group.sub a b
  multiple : ∀ (k : Nat) (a : group.Members),
    ((k • a : group.Members) : Element) = group.multiple k a

/-- Multiples go along with the operations of the group and with those of a field of scalars. -/
structure Linear (group : GroupOps Element) (field : ScalarField) : Prop where
  multiple_add : ∀ (k : Scalar) (a b : group.Members),
    group.multiple k.value (group.add a b) =
      group.add (group.multiple k.value a) (group.multiple k.value b)
  multiple_negate : ∀ (k : Scalar) (a : group.Members),
    group.multiple k.value (group.negate a) = group.negate (group.multiple k.value a)
  zero_multiple : ∀ a : group.Members, group.multiple field.zero.value a = group.identity
  one_multiple : ∀ a : group.Members, group.multiple field.one.value a = a
  add_multiple : ∀ (k l : Scalar) (a : group.Members),
    group.multiple (field.add k l).value a =
      group.add (group.multiple k.value a) (group.multiple l.value a)
  sub_multiple : ∀ (k l : Scalar) (a : group.Members), field.Reduced l →
    group.multiple (field.sub k l).value a =
      group.sub (group.multiple k.value a) (group.multiple l.value a)
  neg_multiple : ∀ (k : Scalar) (a : group.Members), field.Reduced k →
    group.multiple (field.neg k).value a = group.negate (group.multiple k.value a)
  mul_multiple : ∀ (k l : Scalar) (a : group.Members),
    group.multiple (field.mul k l).value a = group.multiple k.value (group.multiple l.value a)

namespace Laws

variable {group : GroupOps Element} (laws : group.Laws)

theorem realizes :
    letI := laws.addCommGroup
    group.Realizes := by
  let := laws.addCommGroup
  refine ⟨rfl, fun _ _ => rfl, fun _ => rfl, fun _ _ => rfl, fun k a => ?_⟩
  induction k with
  | zero =>
      rw [zero_nsmul, laws.multiple_zero a.2]
      rfl
  | succ k ih =>
      rw [succ_nsmul, laws.multiple_succ k a.2, ← ih]
      rfl

theorem order_nsmul (a : group.Members) :
    letI := laws.addCommGroup
    group.order • a = 0 := by
  let := laws.addCommGroup
  rw [← laws.card_members]
  exact card_nsmul_eq_zero'

variable {field : ScalarField} (same : field.modulus = group.order)

/-- The residues act on the genuine elements, since the order takes each of them to the
    identity. -/
@[reducible]
def scalarModule :
    letI := laws.addCommGroup
    Module (ZMod field.modulus) group.Members :=
  letI := laws.addCommGroup
  AddCommGroup.zmodModule fun a => same ▸ laws.order_nsmul a

theorem residue_smul (k : Scalar) (a : group.Members) :
    letI := laws.addCommGroup
    letI := laws.scalarModule same
    ((field.residue k • a : group.Members) : Element) = group.multiple k.value a := by
  let := laws.addCommGroup
  let := laws.scalarModule same
  rw [ScalarField.residue, Nat.cast_smul_eq_nsmul, laws.realizes.multiple]

include laws same in
theorem linear : group.Linear field := by
  let := laws.addCommGroup
  let := laws.scalarModule same
  have real := laws.realizes
  have multiple (k : Scalar) (a : group.Members) :
      group.multiple k.value a = (field.residue k • a : group.Members) :=
    (laws.residue_smul same k a).symm
  exact {
    multiple_add := by
      intro k a b
      simp only [← real.add, multiple, smul_add]
    multiple_negate := by
      intro k a
      simp only [← real.negate, multiple, smul_neg]
    zero_multiple := by
      intro a
      rw [multiple, field.residue_zero, zero_smul, real.identity]
    one_multiple := by
      intro a
      rw [multiple, field.residue_one, one_smul]
    add_multiple := by
      intro k l a
      simp only [← real.add, multiple, field.residue_add, add_smul]
    sub_multiple := by
      intro k l a reduced
      simp only [← real.sub, multiple, field.residue_sub k reduced, sub_smul]
    neg_multiple := by
      intro k a reduced
      simp only [← real.negate, multiple, field.residue_neg reduced, neg_smul]
    mul_multiple := by
      intro k l a
      simp only [multiple, field.residue_mul, mul_smul] }

end Laws

end GroupOps

namespace CommitmentKey

/-- What is done to commitments is done to their openings. -/
structure Homomorphic (key : CommitmentKey Element) : Prop where
  add : ∀ s t s' t', key.group.add (key.commit s t) (key.commit s' t') =
    key.commit (key.field.add s s') (key.field.add t t')
  negate : ∀ s t, key.field.Reduced s → key.field.Reduced t →
    key.group.negate (key.commit s t) = key.commit (key.field.neg s) (key.field.neg t)
  scale : ∀ k s t,
    key.scale k (key.commit s t) = key.commit (key.field.mul k s) (key.field.mul k t)
  /-- A commitment in place of the first generator, with its own secret once more. -/
  square : ∀ s t t', key.commitWith (key.commit s t) s t' =
    key.commit (key.field.mul s s) (key.field.add (key.field.mul s t) t')

theorem homomorphic {key : CommitmentKey Element} (laws : key.group.Laws)
    (member : key.group.Member key.blindingBase) : key.Homomorphic := by
  let := laws.addCommGroup
  let := laws.scalarModule key.modulus_eq
  have real := laws.realizes
  have scale (k : Scalar) (a : key.group.Members) :
      key.scale k a = (key.field.residue k • a : key.group.Members) :=
    (laws.residue_smul key.modulus_eq k a).symm
  have commitWith (a : key.group.Members) (s t : Scalar) :
      key.commitWith a s t = (key.field.residue s • a +
        key.field.residue t • ⟨key.blindingBase, member⟩ : key.group.Members) := by
    rw [real.add, ← scale, ← scale]
    rfl
  have commit (s t : Scalar) :
      key.commit s t =
        (key.field.residue s • ⟨key.group.generator, laws.generator_member⟩ +
          key.field.residue t • ⟨key.blindingBase, member⟩ : key.group.Members) :=
    commitWith ⟨key.group.generator, laws.generator_member⟩ s t
  exact {
    add := by
      intro s t s' t'
      simp only [commit, ← real.add, ScalarField.residue_add]
      congr 1
      module
    negate := by
      intro s t reduced reduced'
      simp only [commit, ← real.negate, ScalarField.residue_neg _ reduced,
        ScalarField.residue_neg _ reduced']
      congr 1
      module
    scale := by
      intro k s t
      simp only [commit, scale, ScalarField.residue_mul]
      congr 1
      module
    square := by
      intro s t t'
      simp only [commit, commitWith, ScalarField.residue_mul, ScalarField.residue_add]
      congr 1
      module }

end CommitmentKey

end CommitScript

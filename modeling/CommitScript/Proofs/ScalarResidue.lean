import Mathlib
import CommitScript.Algebra.Scalar
import CommitScript.Proofs.ModularPower

/-! # Scalars as residues

A scalar stands for a residue modulo the order of its field. Field operations are the
operations of residues, and reduced scalars that stand for the same residue are the same, so
an equation between scalars is settled among residues.
-/

namespace CommitScript.ScalarField

variable (field : ScalarField)

/-- The residue that a scalar stands for. -/
def residue (a : Scalar) : ZMod field.modulus :=
  a.value

@[simp]
theorem residue_zero : field.residue field.zero = 0 := by
  simp [residue, zero]

@[simp]
theorem residue_one : field.residue field.one = 1 := by
  simp [residue, one]

@[simp]
theorem residue_reduce (n : Nat) : field.residue (field.reduce n) = n := by
  simp [residue, reduce]

@[simp]
theorem residue_add (a b : Scalar) :
    field.residue (field.add a b) = field.residue a + field.residue b := by
  simp [residue, add]

@[simp]
theorem residue_mul (a b : Scalar) :
    field.residue (field.mul a b) = field.residue a * field.residue b := by
  simp [residue, mul]

theorem residue_sub (a : Scalar) {b : Scalar} (h : field.Reduced b) :
    field.residue (field.sub a b) = field.residue a - field.residue b := by
  have le : b.value ≤ a.value + field.modulus :=
    le_trans (le_of_lt h) (Nat.le_add_left _ _)
  simp [residue, sub, Nat.cast_sub le]

theorem residue_neg {a : Scalar} (h : field.Reduced a) :
    field.residue (field.neg a) = -field.residue a := by
  simp [residue, neg, Nat.cast_sub (le_of_lt h)]

@[simp]
theorem residue_pow (a : Scalar) (exponent : Nat) :
    field.residue (field.pow a exponent) = field.residue a ^ exponent := by
  simp [residue, pow, Modular.power_eq _ _ field.modulus_pos]

theorem residue_ofInt (value : Int) : field.residue (field.ofInt value) = value := by
  have magnitude : ((value.natAbs : Int) : ZMod field.modulus) = value.natAbs := Int.cast_natCast _
  unfold ofInt
  by_cases h : value < 0
  · have : (value.natAbs : Int) = -value := by omega
    rw [if_pos h, residue_neg _ (field.reduced_reduce _), residue_reduce, ← magnitude, this,
      Int.cast_neg, neg_neg]
  · have : (value.natAbs : Int) = value := by omega
    rw [if_neg h, residue_reduce, ← magnitude, this]

variable {field}

/-- Reduced scalars are told apart by their residues. -/
theorem residue_inj {a b : Scalar} (ha : field.Reduced a) (hb : field.Reduced b) :
    field.residue a = field.residue b ↔ a = b := by
  constructor
  · intro h
    have classes : a.value % field.modulus = b.value % field.modulus :=
      (ZMod.natCast_eq_natCast_iff' _ _ _).mp h
    rw [Nat.mod_eq_of_lt ha, Nat.mod_eq_of_lt hb] at classes
    cases a
    cases b
    exact congrArg Scalar.mk classes
  · rintro rfl
    rfl

theorem residue_eq_zero {a : Scalar} (h : field.Reduced a) :
    field.residue a = 0 ↔ a = field.zero := by
  rw [← residue_zero, residue_inj h field.reduced_zero]

/-- The reduced scalar that stands for a residue. -/
def ofResidue (field : ScalarField) (a : ZMod field.modulus) : Scalar :=
  ⟨a.val⟩

theorem reduced_ofResidue (a : ZMod field.modulus) : field.Reduced (field.ofResidue a) := by
  have : NeZero field.modulus := ⟨field.modulus_pos.ne'⟩
  exact ZMod.val_lt a

@[simp]
theorem residue_ofResidue (a : ZMod field.modulus) : field.residue (field.ofResidue a) = a := by
  have : NeZero field.modulus := ⟨field.modulus_pos.ne'⟩
  exact ZMod.natCast_zmod_val a

theorem ofResidue_residue {a : Scalar} (h : field.Reduced a) :
    field.ofResidue (field.residue a) = a := by
  rw [← residue_inj (reduced_ofResidue _) h, residue_ofResidue]

/-- Over a prime modulus every reduced scalar but zero has an inverse, and that is its inverse
    among the residues. -/
theorem exists_inverse (prime : field.modulus.Prime) {a : Scalar} (reduced : field.Reduced a)
    (nonzero : a ≠ field.zero) :
    ∃ inverse, field.inverse a = .ok inverse ∧
      field.residue inverse * field.residue a = 1 := by
  have : Fact field.modulus.Prime := ⟨prime⟩
  have value : a.value ≠ 0 := by
    intro zero
    apply nonzero
    cases a
    exact congrArg Scalar.mk zero
  refine ⟨field.pow a (field.modulus - 2), by rw [inverse, if_neg value], ?_⟩
  have exponent : field.modulus - 2 + 1 = field.modulus - 1 := by
    have := prime.two_le
    omega
  rw [residue_pow, ← pow_succ, exponent]
  rw [ne_eq, ← residue_eq_zero reduced] at nonzero
  exact ZMod.pow_card_sub_one_eq_one nonzero

/-- Over a prime modulus just the scalars other than zero are inverted, to the inverse among the
    residues. -/
theorem inverse_eq_ok (prime : field.modulus.Prime) {a inverse : Scalar}
    (reduced : field.Reduced a) :
    field.inverse a = .ok inverse ↔
      field.residue a ≠ 0 ∧ field.Reduced inverse ∧
        field.residue inverse = (field.residue a)⁻¹ := by
  have : Fact field.modulus.Prime := ⟨prime⟩
  rw [ne_eq, residue_eq_zero reduced]
  constructor
  · intro inverts
    have nonzero : a ≠ field.zero := by
      rintro rfl
      cases inverts
    obtain ⟨inverse', inverts', cancels⟩ := exists_inverse prime reduced nonzero
    cases inverts.symm.trans inverts'
    exact ⟨nonzero, field.reduced_inverse inverts, eq_inv_of_mul_eq_one_left cancels⟩
  · rintro ⟨nonzero, reducedInverse, residue⟩
    obtain ⟨inverse', inverts, cancels⟩ := exists_inverse prime reduced nonzero
    rw [← eq_inv_of_mul_eq_one_left cancels,
      residue_inj reducedInverse (field.reduced_inverse inverts)] at residue
    rw [inverts, residue]

/-- The class of an integer is its least non-negative residue. -/
theorem value_ofInt (field : ScalarField) (value : Int) :
    ((field.ofInt value).value : Int) = value % field.modulus := by
  have classes : ((field.ofInt value).value : Int) % field.modulus = value % field.modulus := by
    apply (ZMod.intCast_eq_intCast_iff' _ _ _).mp
    rw [← field.residue_ofInt value]
    exact Int.cast_natCast _
  have small := field.reduced_ofInt value
  rw [Int.emod_eq_of_lt (by omega) (by exact_mod_cast small)] at classes
  exact classes

/-- A scalar is the class of an integer when it is the least non-negative residue of it. -/
theorem eq_ofInt_iff {a : Scalar} {value : Int} :
    a = field.ofInt value ↔ (a.value : Int) = value % field.modulus := by
  rw [← value_ofInt]
  constructor
  · rintro rfl
    rfl
  · intro h
    cases a
    exact congrArg Scalar.mk (by exact_mod_cast h)

end CommitScript.ScalarField

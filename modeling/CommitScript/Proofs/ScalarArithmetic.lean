import CommitScript.Proofs.ScalarResidue

/-! # Scalars compute with integers

The class of an integer is the only reduced scalar that is congruent to it. The operations of a
field, applied to classes, give the class of what the integers give, of whatever sign and size
these are. Over a prime modulus, which may be two, everything but zero has an inverse.
-/

namespace CommitScript.ScalarField

variable {field : ScalarField}

/-- A reduced scalar is the class of an integer when it stands for the integer's residue. -/
theorem ofInt_eq {a : Scalar} {value : Int} (reduced : field.Reduced a)
    (same : (value : ZMod field.modulus) = field.residue a) : field.ofInt value = a := by
  rw [← residue_inj (field.reduced_ofInt value) reduced, residue_ofInt, same]

theorem eq_ofInt_iff_modEq {a : Scalar} {value : Int} :
    a = field.ofInt value ↔ field.Reduced a ∧ (a.value : Int) ≡ value [ZMOD field.modulus] := by
  rw [← ZMod.intCast_eq_intCast_iff, Int.cast_natCast]
  constructor
  · rintro rfl
    exact ⟨field.reduced_ofInt value, field.residue_ofInt value⟩
  · rintro ⟨reduced, congruent⟩
    exact (ofInt_eq reduced congruent.symm).symm

theorem ofInt_zero : field.ofInt 0 = field.zero :=
  ofInt_eq field.reduced_zero (by rw [residue_zero, Int.cast_zero])

theorem ofInt_one : field.ofInt 1 = field.one :=
  ofInt_eq field.reduced_one (by rw [residue_one, Int.cast_one])

theorem ofInt_natCast (n : Nat) : field.ofInt n = field.reduce n :=
  ofInt_eq (field.reduced_reduce n) (by rw [residue_reduce, Int.cast_natCast])

theorem reduce_eq_zero_iff {n : Nat} : field.reduce n = field.zero ↔ field.modulus ∣ n := by
  simp only [reduce, zero, Scalar.mk.injEq, Nat.dvd_iff_mod_eq_zero]

section Operations

variable (x y : Int)

theorem ofInt_add : field.ofInt (x + y) = field.add (field.ofInt x) (field.ofInt y) := by
  apply ofInt_eq (field.reduced_add _ _)
  rw [residue_add, residue_ofInt, residue_ofInt, Int.cast_add]

theorem ofInt_sub : field.ofInt (x - y) = field.sub (field.ofInt x) (field.ofInt y) := by
  apply ofInt_eq (field.reduced_sub _ _)
  rw [residue_sub _ _ (field.reduced_ofInt y), residue_ofInt, residue_ofInt, Int.cast_sub]

theorem ofInt_mul : field.ofInt (x * y) = field.mul (field.ofInt x) (field.ofInt y) := by
  apply ofInt_eq (field.reduced_mul _ _)
  rw [residue_mul, residue_ofInt, residue_ofInt, Int.cast_mul]

theorem ofInt_neg : field.ofInt (-x) = field.neg (field.ofInt x) := by
  apply ofInt_eq (field.reduced_neg _)
  rw [residue_neg _ (field.reduced_ofInt x), residue_ofInt, Int.cast_neg]

theorem ofInt_pow (exponent : Nat) :
    field.ofInt (x ^ exponent) = field.pow (field.ofInt x) exponent := by
  apply ofInt_eq (field.reduced_pow _ _)
  rw [residue_pow, residue_ofInt, Int.cast_pow]

end Operations

/-- Zero is refused as no other scalar is, whether the modulus is prime or not. -/
theorem inverse_eq_error {a : Scalar} {fault : AlgebraError} :
    field.inverse a = .error fault ↔ a = field.zero ∧ fault = .notInvertible := by
  have zero_iff : a = field.zero ↔ a.value = 0 := by
    cases a
    simp only [zero, Scalar.mk.injEq]
  rw [inverse, zero_iff]
  split
  · next zero => simp only [zero, true_and, Except.error.injEq, eq_comm]
  · next nonzero => simp only [nonzero, false_and, reduceCtorEq]

/-- Over a prime modulus a scalar times its inverse is one. -/
theorem exists_inverse_mul (prime : field.modulus.Prime) {a : Scalar} (reduced : field.Reduced a)
    (nonzero : a ≠ field.zero) :
    ∃ inverse, field.inverse a = .ok inverse ∧ field.Reduced inverse ∧
      field.mul a inverse = field.one := by
  obtain ⟨inverse, inverts, cancels⟩ := exists_inverse prime reduced nonzero
  refine ⟨inverse, inverts, field.reduced_inverse inverts, ?_⟩
  rw [← residue_inj (field.reduced_mul _ _) field.reduced_one, residue_mul, residue_one, mul_comm,
    cancels]

/-- The class of an integer is the one reduced scalar congruent to it, and classes are added,
    subtracted, multiplied, negated and raised as the integers are. Every operation on reduced
    scalars gives a reduced scalar, and so do reducing a number and reading bytes of any length.
    Over a prime modulus zero alone has no inverse. -/
theorem arithmetic_is_modular (field : ScalarField) :
    (∀ value a, a = field.ofInt value ↔
      field.Reduced a ∧ (a.value : Int) ≡ value [ZMOD field.modulus]) ∧
    (field.ofInt 0 = field.zero ∧ field.ofInt 1 = field.one) ∧
    (∀ x y, field.ofInt (x + y) = field.add (field.ofInt x) (field.ofInt y) ∧
      field.ofInt (x - y) = field.sub (field.ofInt x) (field.ofInt y) ∧
      field.ofInt (x * y) = field.mul (field.ofInt x) (field.ofInt y)) ∧
    (∀ x, field.ofInt (-x) = field.neg (field.ofInt x) ∧
      ∀ exponent : Nat, field.ofInt (x ^ exponent) = field.pow (field.ofInt x) exponent) ∧
    (∀ a b, field.Reduced a → field.Reduced b →
      field.Reduced (field.add a b) ∧ field.Reduced (field.sub a b) ∧
      field.Reduced (field.mul a b) ∧ field.Reduced (field.neg a) ∧
      ∀ exponent, field.Reduced (field.pow a exponent)) ∧
    (∀ n : Nat, field.Reduced (field.reduce n) ∧ field.reduce n = field.ofInt n) ∧
    (∀ bytes, field.Reduced (field.ofWideBytes bytes) ∧
      field.ofWideBytes bytes = field.ofInt (Bytes.toNatBig bytes)) ∧
    (field.modulus.Prime → ∀ a, field.Reduced a →
      (∀ fault, field.inverse a = .error fault ↔ a = field.zero ∧ fault = .notInvertible) ∧
      (a ≠ field.zero → ∃ inverse, field.inverse a = .ok inverse ∧ field.Reduced inverse ∧
        field.mul a inverse = field.one)) := by
  refine ⟨fun _ _ => eq_ofInt_iff_modEq, ⟨ofInt_zero, ofInt_one⟩, ?_, ?_, ?_, ?_, ?_, ?_⟩
  · intro x y
    exact ⟨ofInt_add x y, ofInt_sub x y, ofInt_mul x y⟩
  · intro x
    exact ⟨ofInt_neg x, ofInt_pow x⟩
  · intro a b _ _
    exact ⟨field.reduced_add a b, field.reduced_sub a b, field.reduced_mul a b,
      field.reduced_neg a, field.reduced_pow a⟩
  · intro n
    exact ⟨field.reduced_reduce n, (ofInt_natCast n).symm⟩
  · intro bytes
    exact ⟨field.reduced_reduce _, (ofInt_natCast _).symm⟩
  · intro prime a reduced
    exact ⟨fun _ => inverse_eq_error, exists_inverse_mul prime reduced⟩

/-- Modulo two, the least prime, one is its own inverse. -/
theorem arithmetic_is_modular_two :
    let field : ScalarField := ⟨2, Nat.one_lt_two⟩
    field.modulus.Prime ∧ field.Reduced ⟨1⟩ ∧ (⟨1⟩ : Scalar) ≠ field.zero ∧
      field.Reduced (field.sub ⟨1⟩ ⟨1⟩) ∧
      ∃ inverse, field.inverse ⟨1⟩ = .ok inverse ∧ field.mul ⟨1⟩ inverse = field.one := by
  intro field
  have prime : field.modulus.Prime := Nat.prime_two
  have reduced : field.Reduced ⟨1⟩ := field.one_lt
  have nonzero : (⟨1⟩ : Scalar) ≠ field.zero := by decide
  obtain ⟨-, -, -, -, closed, -, -, inverts⟩ := arithmetic_is_modular field
  obtain ⟨inverse, given, -, cancels⟩ := (inverts prime ⟨1⟩ reduced).2 nonzero
  exact ⟨prime, reduced, nonzero, (closed _ _ reduced reduced).2.1, inverse, given, cancels⟩

end CommitScript.ScalarField

import CommitScript.Proofs.LiteralText
import CommitScript.Proofs.ScalarArithmetic
import CommitScript.Run.Opening

/-! # The values of weights

A fraction stands for its part of the modulus, rounded up to the next integer; below one it can
come to the whole modulus, which is zero again. The inverse of an integer is one among residues,
and there is none for multiples of the modulus.
-/

namespace CommitScript.Weight

variable {field : ScalarField}

theorem reduced_resolve {weight : Weight} {a : Scalar} (h : weight.resolve field = .ok a) :
    field.Reduced a := by
  cases weight with
  | integer value =>
      cases h
      exact field.reduced_ofInt _
  | fraction numerator places =>
      cases h
      exact field.reduced_reduce _
  | inverse divisor => exact field.reduced_inverse h

/-! ## Fractions -/

section Fractions

variable (field) (numerator places : Nat)

/-- A fraction of the modulus, rounded up. -/
def share : Nat :=
  field.modulus * numerator ⌈/⌉ 10 ^ places

theorem resolve_fraction :
    (fraction numerator places).resolve field =
      .ok (field.reduce (share field numerator places)) := by
  rw [resolve, share, Nat.ceilDiv_eq_add_pred_div]
  rfl

variable {field numerator places}

theorem share_le_iff {c : Nat} :
    share field numerator places ≤ c ↔ field.modulus * numerator ≤ c * 10 ^ places := by
  rw [mul_comm c]
  exact ceilDiv_le_iff_le_smul (Nat.pow_pos (by decide))

variable (field numerator places)

/-- A share is the least integer that is not below the fraction. -/
theorem isLeast_share :
    IsLeast {c : Int | (field.modulus * numerator : Int) ≤ c * 10 ^ places}
      (share field numerator places) := by
  have positive : (0 : Int) < 10 ^ places := by positivity
  constructor
  · have enough := share_le_iff.mp (le_refl (share field numerator places))
    rw [Set.mem_ofPred_eq]
    exact_mod_cast enough
  · intro c enough
    rw [Set.mem_ofPred_eq] at enough
    have nonneg : 0 ≤ c := nonneg_of_mul_nonneg_left (le_trans (by positivity) enough) positive
    lift c to Nat using nonneg
    exact_mod_cast share_le_iff.mpr (by exact_mod_cast enough)

/-- A zero behind the digits of a fraction changes nothing. -/
theorem share_append_zero :
    share field (10 * numerator) (places + 1) = share field numerator places := by
  apply eq_of_forall_ge_iff
  intro c
  rw [share_le_iff, share_le_iff, pow_succ', mul_left_comm, mul_left_comm c]
  exact Nat.mul_le_mul_left_iff (by decide)

variable {field numerator places}

theorem share_eq_zero : share field numerator places = 0 ↔ numerator = 0 := by
  rw [← Nat.le_zero, share_le_iff, zero_mul, Nat.le_zero, mul_eq_zero]
  exact or_iff_right field.modulus_pos.ne'

/-- Of a fraction below one the share is no more than the whole. -/
theorem share_le (small : numerator < 10 ^ places) :
    share field numerator places ≤ field.modulus :=
  share_le_iff.mpr (Nat.mul_le_mul_left _ small.le)

/-- The share is the whole when what is missing to one is less than a single unit. -/
theorem share_eq_modulus (small : numerator < 10 ^ places) :
    share field numerator places = field.modulus ↔
      field.modulus * (10 ^ places - numerator) < 10 ^ places := by
  have most : share field numerator places ≤ field.modulus := share_le small
  have positive := field.modulus_pos
  have less : share field numerator places ≤ field.modulus - 1 ↔
      field.modulus * numerator ≤ field.modulus * 10 ^ places - 10 ^ places := by
    rw [share_le_iff, Nat.sub_one_mul]
  have unit : 10 ^ places ≤ field.modulus * 10 ^ places := Nat.le_mul_of_pos_left _ positive
  rw [Nat.mul_sub]
  omega

/-- Below one a fraction stands for zero when it is zero, or so close to one that its share is the
    whole. -/
theorem reduce_share_eq_zero (small : numerator < 10 ^ places) :
    field.reduce (share field numerator places) = field.zero ↔
      numerator = 0 ∨ field.modulus * (10 ^ places - numerator) < 10 ^ places := by
  have zero_iff : share field numerator places = 0 ↔ numerator = 0 := share_eq_zero
  rw [← share_eq_modulus small, ← zero_iff, ScalarField.reduce_eq_zero_iff]
  constructor
  · intro multiple
    rcases Nat.eq_zero_or_pos (share field numerator places) with zero | positive
    · exact .inl zero
    · exact .inr (le_antisymm (share_le small) (Nat.le_of_dvd positive multiple))
  · rintro (zero | whole)
    · exact zero ▸ dvd_zero _
    · exact dvd_of_eq whole.symm

/-- Half of an odd modulus, rounded up, is the inverse of two. -/
theorem share_half (odd : Odd field.modulus) : share field 5 1 * 2 = field.modulus + 1 := by
  obtain ⟨k, modulus⟩ := odd
  rw [share, Nat.ceilDiv_eq_add_pred_div, pow_one]
  omega

end Fractions

/-! ## Inverses -/

theorem resolve_inverse_eq_error {divisor : Nat} {fault : AlgebraError} :
    (inverse divisor).resolve field = .error fault ↔
      field.modulus ∣ divisor ∧ fault = .notInvertible := by
  rw [resolve, ScalarField.inverse_eq_error, ScalarField.reduce_eq_zero_iff]

theorem exists_resolve_inverse (prime : field.modulus.Prime) {divisor : Nat}
    (apart : ¬field.modulus ∣ divisor) :
    ∃ a, (inverse divisor).resolve field = .ok a ∧
      a.value * divisor ≡ 1 [MOD field.modulus] := by
  have nonzero : field.reduce divisor ≠ field.zero :=
    fun zero => apart (ScalarField.reduce_eq_zero_iff.mp zero)
  obtain ⟨a, inverts, cancels⟩ :=
    ScalarField.exists_inverse prime (field.reduced_reduce divisor) nonzero
  refine ⟨a, inverts, ?_⟩
  rw [← ZMod.natCast_eq_natCast_iff, Nat.cast_mul, Nat.cast_one, ← cancels,
    ScalarField.residue_reduce]
  rfl

/-- A fraction stands for the class of the least integer that is not below that part of the
    modulus, and zeros behind its digits change nothing. If it is below one, as every fraction is
    that is read, the integer is not above the modulus, and the class is zero only for zero and for
    what is too close to one. Modulo an odd number a half is the inverse of two. Over a prime
    modulus an inverse is one among residues, and is missing just for the multiples of the modulus.
    An integer stands for its least non-negative residue, and no weight for anything that is not
    reduced. -/
theorem weights_resolve_exactly (field : ScalarField) :
    (∀ numerator places, ∃ (a : Scalar) (c : Nat),
      (fraction numerator places).resolve field = .ok a ∧ a.value = c % field.modulus ∧
      IsLeast {c : Int | (field.modulus * numerator : Int) ≤ c * 10 ^ places} c ∧
      (fraction (10 * numerator) (places + 1)).resolve field = .ok a ∧
      (numerator < 10 ^ places → c ≤ field.modulus ∧
        (a.value = 0 ↔
          numerator = 0 ∨ field.modulus * (10 ^ places - numerator) < 10 ^ places))) ∧
    (∀ literal numerator places, read literal = .ok (fraction numerator places) →
      numerator < 10 ^ places) ∧
    (Odd field.modulus → ∃ half a, read ".5" = .ok half ∧ half.resolve field = .ok a ∧
      a.value * 2 ≡ 1 [MOD field.modulus]) ∧
    (field.modulus.Prime → ∀ divisor,
      (∀ fault, (inverse divisor).resolve field = .error fault ↔
        field.modulus ∣ divisor ∧ fault = .notInvertible) ∧
      (¬field.modulus ∣ divisor → ∃ a, (inverse divisor).resolve field = .ok a ∧
        a.value * divisor ≡ 1 [MOD field.modulus])) ∧
    (∀ value, ∃ a, (integer value).resolve field = .ok a ∧
      (a.value : Int) = value % field.modulus) ∧
    ∀ (weight : Weight) a, weight.resolve field = .ok a → field.Reduced a := by
  refine ⟨?_, ?_, ?_, ?_, ?_, fun _ _ => reduced_resolve⟩
  · intro numerator places
    refine ⟨_, share field numerator places, resolve_fraction .., rfl, isLeast_share .., ?_, ?_⟩
    · rw [resolve_fraction, share_append_zero]
    · intro small
      refine ⟨share_le small, Iff.trans ?_ (reduce_share_eq_zero small)⟩
      rw [ScalarField.zero, Scalar.mk.injEq]
  · intro literal numerator places reads
    unfold read at reads
    split at reads
    · next weight given =>
      cases reads
      exact (literal_of_spelled (ofChars?_iff.mp given)).2
    · cases reads
  · intro odd
    refine ⟨fraction 5 1, _, rfl, resolve_fraction .., ?_⟩
    have half : share field 5 1 * 2 ≡ 1 [MOD field.modulus] := by
      rw [share_half odd]
      exact Nat.add_modEq_left
    exact ((Nat.mod_modEq _ _).mul_right 2).trans half
  · intro prime divisor
    exact ⟨fun _ => resolve_inverse_eq_error, exists_resolve_inverse prime⟩
  · intro value
    exact ⟨_, rfl, ScalarField.value_ofInt field value⟩

/-- Modulo a hundred and one a fraction just below one is rounded up to the whole, which is zero.
    A half and a third are inverses. -/
theorem weights_resolve_exactly_small :
    let field : ScalarField := ⟨101, Nat.succ_lt_succ (Nat.succ_pos 99)⟩
    read ".999" = .ok (fraction 999 3) ∧
      (∃ a, (fraction 999 3).resolve field = .ok a ∧ a.value = 0) ∧ Odd field.modulus ∧
      (∃ half a, read ".5" = .ok half ∧ half.resolve field = .ok a ∧
        a.value * 2 ≡ 1 [MOD field.modulus]) ∧
      field.modulus.Prime ∧
      ∃ a, (inverse 3).resolve field = .ok a ∧ a.value * 3 ≡ 1 [MOD field.modulus] ∧
        field.Reduced a := by
  intro field
  have reads : read ".999" = .ok (fraction 999 3) := rfl
  have odd : Odd field.modulus := ⟨50, rfl⟩
  have prime : field.modulus.Prime := by norm_num [field]
  have apart : ¬field.modulus ∣ 3 := by norm_num [field]
  obtain ⟨fractions, literals, halves, inverses, -, reduced⟩ := weights_resolve_exactly field
  obtain ⟨a, c, resolves, -, -, -, below⟩ := fractions 999 3
  have close : field.modulus * (10 ^ 3 - 999) < 10 ^ 3 := by norm_num [field]
  have zero : a.value = 0 := (below (literals _ _ _ reads)).2.mpr (.inr close)
  obtain ⟨third, inverts, cancels⟩ := (inverses prime 3).2 apart
  exact ⟨reads, ⟨a, resolves, zero⟩, odd, halves odd, prime, third, inverts, cancels,
    reduced _ _ inverts⟩

end CommitScript.Weight

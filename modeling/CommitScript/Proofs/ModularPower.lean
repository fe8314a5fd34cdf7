import Mathlib
import CommitScript.Algebra.Power

/-! # Modular powers are residues of powers

Repeated squaring takes the binary digits of the exponent one by one. After each digit the
accumulator times the power that is left has the same residue, so in the end the accumulator
is the residue of the whole power.
-/

namespace CommitScript.Modular

theorem powerDigits_mod (modulus digits base exponent acc : Nat) (h : exponent < 2 ^ digits) :
    powerDigits modulus digits base exponent acc % modulus = acc * base ^ exponent % modulus := by
  induction digits generalizing base exponent acc with
  | zero =>
      have : exponent = 0 := by simp only [Nat.pow_zero] at h; omega
      simp [powerDigits, this]
  | succ digits ih =>
      have hlt : exponent / 2 < 2 ^ digits := by rw [Nat.pow_succ] at h; omega
      have hsquare : (base * base % modulus) ^ (exponent / 2) % modulus
          = base ^ (2 * (exponent / 2)) % modulus := by
        rw [← Nat.pow_mod, Nat.pow_mul, Nat.pow_two]
      rw [powerDigits, ih _ _ _ hlt, Nat.mul_mod, hsquare, ← Nat.mul_mod]
      split
      · next hodd =>
        have : exponent = 2 * (exponent / 2) + 1 := by omega
        rw [Nat.mul_mod, Nat.mod_mod, ← Nat.mul_mod]
        conv => rhs; rw [this, Nat.pow_succ]
        congr 1
        rw [Nat.mul_assoc, Nat.mul_comm base]
      · next heven =>
        have : exponent = 2 * (exponent / 2) := by omega
        conv => rhs; rw [this]

/-- Repeated squaring gives the residue of the power. -/
theorem power_eq {modulus : Nat} (base exponent : Nat) (h : 0 < modulus) :
    power modulus base exponent = base ^ exponent % modulus := by
  rw [power]
  split
  · next hzero => simp [hzero]
  · next hpos =>
    have hlt : powerDigits modulus (exponent.log2 + 1) (base % modulus) exponent (1 % modulus)
        < modulus := powerDigits_lt (Nat.mod_lt 1 h)
    rw [← Nat.mod_eq_of_lt hlt, powerDigits_mod _ _ _ _ _ Nat.lt_log2_self]
    rw [Nat.mul_mod, Nat.mod_mod, ← Nat.pow_mod, ← Nat.mul_mod, Nat.one_mul]

end CommitScript.Modular

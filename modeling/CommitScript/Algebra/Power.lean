/-! # Modular powers

Raising to a power modulo a number by repeated squaring. The result lies below the modulus.
-/

namespace CommitScript.Modular

/-- Multiplies the accumulator by a power of the base, taking a given number of binary digits
    of the exponent from the lowest up. -/
def powerDigits (modulus : Nat) : Nat → Nat → Nat → Nat → Nat
  | 0, _, _, acc => acc
  | digits + 1, base, exponent, acc =>
      let acc := if exponent % 2 = 1 then acc * base % modulus else acc
      powerDigits modulus digits (base * base % modulus) (exponent / 2) acc

/-- The residue of a power. -/
def power (modulus base exponent : Nat) : Nat :=
  if exponent = 0 then 1 % modulus
  else powerDigits modulus (exponent.log2 + 1) (base % modulus) exponent (1 % modulus)

theorem powerDigits_lt {modulus digits base exponent acc : Nat} (h : acc < modulus) :
    powerDigits modulus digits base exponent acc < modulus := by
  induction digits generalizing base exponent acc with
  | zero => exact h
  | succ digits ih =>
      apply ih
      split
      · exact Nat.mod_lt _ (by omega)
      · exact h

theorem power_lt {modulus : Nat} (base exponent : Nat) (h : 0 < modulus) :
    power modulus base exponent < modulus := by
  rw [power]
  split
  · exact Nat.mod_lt 1 h
  · exact powerDigits_lt (Nat.mod_lt 1 h)

end CommitScript.Modular

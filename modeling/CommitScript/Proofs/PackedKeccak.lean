import Mathlib
import CommitScript.Sponge.Keccak

/-! # Packed states

A state of the permutation as one number, whose digits to the base 2^64 are the words. What is done
to the words can be done to the number, and numbers compute fast in a proof where vectors of words
do not.
-/

namespace CommitScript.Packed

theorem size_eq : UInt64.size = 2 ^ 64 := rfl

/-! ## Digits -/

/-- The number whose digits these are, the lowest first. -/
def ofDigits (digits : List Nat) : Nat :=
  digits.foldr (fun digit rest => digit + UInt64.size * rest) 0

theorem ofDigits_cons (digit : Nat) (rest : List Nat) :
    ofDigits (digit :: rest) = digit + UInt64.size * ofDigits rest :=
  rfl

def digit (n place : Nat) : Nat :=
  n >>> (64 * place) % UInt64.size

theorem digit_ofDigits {digits : List Nat} (small : ∀ d ∈ digits, d < UInt64.size) (place : Nat) :
    digit (ofDigits digits) place = digits.getD place 0 := by
  induction digits generalizing place with
  | nil => simp [ofDigits, digit]
  | cons d digits ih =>
      rw [List.forall_mem_cons] at small
      cases place with
      | zero =>
          rw [ofDigits_cons, digit, Nat.mul_zero, Nat.shiftRight_zero, Nat.add_mul_mod_self_left,
            Nat.mod_eq_of_lt small.1, List.getD_cons_zero]
      | succ place =>
          have rest : (d + UInt64.size * ofDigits digits) >>> 64 = ofDigits digits := by
            rw [Nat.shiftRight_eq_div_pow, ← size_eq, Nat.add_mul_div_left _ _ (by decide),
              Nat.div_eq_of_lt small.1, Nat.zero_add]
          rw [List.getD_cons_succ, ← ih small.2, ofDigits_cons, digit, digit, Nat.mul_succ,
            Nat.add_comm (64 * place), Nat.shiftRight_add, rest]

/-- The lowest digits of two numbers do not meet the rest. -/
theorem xor_digit {a b : Nat} (ha : a < UInt64.size) (hb : b < UInt64.size) (rest rest' : Nat) :
    (a + UInt64.size * rest) ^^^ (b + UInt64.size * rest') =
      (a ^^^ b) + UInt64.size * (rest ^^^ rest') := by
  rw [size_eq] at *
  have low := Nat.xor_lt_two_pow ha hb
  apply Nat.eq_of_testBit_eq
  intro place
  rw [Nat.testBit_xor, Nat.add_comm a, Nat.add_comm b, Nat.add_comm (a ^^^ b),
    Nat.testBit_two_pow_mul_add _ ha, Nat.testBit_two_pow_mul_add _ hb,
    Nat.testBit_two_pow_mul_add _ low, Nat.testBit_xor, Nat.testBit_xor]
  split <;> rfl

theorem ofDigits_set_xor {digits : List Nat} (small : ∀ d ∈ digits, d < UInt64.size)
    {place : Nat} (h : place < digits.length) {d : Nat} (hd : d < UInt64.size) :
    ofDigits (digits.set place (digits[place] ^^^ d)) =
      ofDigits digits ^^^ d <<< (64 * place) := by
  induction digits generalizing place with
  | nil => simp at h
  | cons first rest ih =>
      rw [List.forall_mem_cons] at small
      cases place with
      | zero =>
          have low := xor_digit small.1 hd (ofDigits rest) 0
          simpa [ofDigits_cons] using low.symm
      | succ place =>
          have high := xor_digit small.1 (by decide : 0 < UInt64.size) (ofDigits rest)
            (d <<< (64 * place))
          rw [Nat.zero_add, Nat.xor_zero] at high
          rw [List.set_cons_succ, ofDigits_cons, ofDigits_cons, List.getElem_cons_succ,
            ih small.2 (by simpa using h), ← high, Nat.mul_succ, Nat.shiftLeft_add,
            Nat.shiftLeft_eq _ 64, ← size_eq, Nat.mul_comm UInt64.size (d <<< _)]

/-! ## Words -/

/-- The number that packs some words. -/
def pack {count : Nat} (words : Vector UInt64 count) : Nat :=
  ofDigits (words.toList.map UInt64.toNat)

theorem words_small {count : Nat} (words : Vector UInt64 count) :
    ∀ d ∈ words.toList.map UInt64.toNat, d < UInt64.size := by
  intro d member
  obtain ⟨word, -, rfl⟩ := List.mem_map.mp member
  exact word.toNat_lt

theorem digit_pack {count : Nat} (words : Vector UInt64 count) {place : Nat} (h : place < count) :
    digit (pack words) place = words[place].toNat := by
  rw [pack, digit_ofDigits (words_small words), List.getD_eq_getElem _ _ (by simpa using h)]
  simp

theorem pack_set_xor {count : Nat} (words : Vector UInt64 count) {place : Nat} (h : place < count)
    (word : UInt64) :
    pack (words.set place (words[place] ^^^ word)) =
      pack words ^^^ word.toNat <<< (64 * place) := by
  rw [pack, pack, ← ofDigits_set_xor (words_small words) (by simpa using h) word.toNat_lt,
    Vector.toList_set, List.map_set]
  simp

/-- The number with these digits. -/
def tabulate (count : Nat) (digits : Nat → Nat) : Nat :=
  ofDigits ((List.range count).map digits)

theorem tabulate_eq {count : Nat} {words : Fin count → UInt64} {digits : Nat → Nat}
    (same : ∀ i : Fin count, digits i = (words i).toNat) :
    tabulate count digits = pack (Vector.ofFn words) := by
  have lists : (List.range count).map digits =
      (Vector.ofFn words).toList.map UInt64.toNat := by
    apply List.ext_getElem
    · simp
    · intro i h h'
      simp [same ⟨i, by simpa using h⟩]
  rw [tabulate, lists, pack]

/-- A digit turned left. -/
def rotate (digit amount : Nat) : Nat :=
  digit <<< amount % UInt64.size ||| digit >>> (64 - amount)

theorem rotate_eq (word amount : UInt64) (small : amount.toNat < 64) :
    rotate word.toNat amount.toNat = (Keccak.rotate word amount).toNat := by
  have less : (64 - amount).toNat = 64 - amount.toNat :=
    UInt64.toNat_sub_of_le _ _ (UInt64.le_iff_toNat_le.mpr small.le)
  rw [rotate, Keccak.rotate, UInt64.toNat_or, UInt64.toNat_shiftLeft, UInt64.toNat_shiftRight,
    less, Nat.mod_eq_of_lt small, size_eq]
  -- A word shifted right by its whole width stays, where a number loses every bit.
  cases Nat.eq_zero_or_pos amount.toNat with
  | inl zero =>
      rw [zero, Nat.shiftLeft_zero, Nat.sub_zero, Nat.mod_self, Nat.shiftRight_zero,
        Nat.mod_eq_of_lt word.toNat_lt, Nat.or_self, Nat.shiftRight_eq_div_pow,
        Nat.div_eq_of_lt word.toNat_lt, Nat.or_zero]
  | inr positive => rw [Nat.mod_eq_of_lt (by omega : 64 - amount.toNat < 64)]

/-! ## The permutation -/

/-- The parity of each column. -/
def parities (n : Nat) : Nat :=
  tabulate 5 fun x =>
    digit n x ^^^ digit n (x + 5) ^^^ digit n (x + 10) ^^^ digit n (x + 15) ^^^ digit n (x + 20)

/-- What the parities add to each column. -/
def changes (parities : Nat) : Nat :=
  tabulate 5 fun x => digit parities ((x + 4) % 5) ^^^ rotate (digit parities ((x + 1) % 5)) 1

def theta (n : Nat) : Nat :=
  tabulate 25 fun i => digit n i ^^^ digit (changes (parities n)) (i % 5)

theorem theta_pack (s : Keccak.State) : theta (pack s) = pack (Keccak.theta s) := by
  -- The two vectors that are local to the step on words.
  have parity : parities (pack s) = pack (Vector.ofFn fun x : Fin 5 =>
      s[x] ^^^ s[x.val + 5] ^^^ s[x.val + 10] ^^^ s[x.val + 15] ^^^ s[x.val + 20]) := by
    apply tabulate_eq
    intro x
    have := x.isLt
    simp only [UInt64.toNat_xor]
    rw [digit_pack s (by omega), digit_pack s (by omega), digit_pack s (by omega),
      digit_pack s (by omega), digit_pack s (by omega)]
    rfl
  have change (parity : Vector UInt64 5) :
      changes (pack parity) = pack (Vector.ofFn fun x : Fin 5 =>
        parity[(x.val + 4) % 5] ^^^ Keccak.rotate parity[(x.val + 1) % 5] 1) := by
    apply tabulate_eq
    intro x
    rw [digit_pack parity (by omega), digit_pack parity (by omega), UInt64.toNat_xor,
      ← rotate_eq _ _ (by decide)]
    rfl
  apply tabulate_eq
  intro i
  rw [parity, change, digit_pack s i.isLt, digit_pack _ (by omega), UInt64.toNat_xor]
  rfl

def rhoPi (n : Nat) : Nat :=
  tabulate 25 fun i =>
    let source := (i % 5 + 3 * (i / 5)) % 5 + 5 * (i % 5)
    rotate (digit n source) (digit (pack Keccak.rotations) source)

theorem rhoPi_pack (s : Keccak.State) : rhoPi (pack s) = pack (Keccak.rhoPi s) := by
  apply tabulate_eq
  intro i
  have inside : (i.val % 5 + 3 * (i.val / 5)) % 5 + 5 * (i.val % 5) < 25 := by omega
  have small : ∀ place (h : place < 25), Keccak.rotations[place].toNat < 64 := by decide
  simp only [digit_pack _ inside]
  exact rotate_eq _ _ (small _ inside)

def chi (n : Nat) : Nat :=
  tabulate 25 fun i =>
    let row := 5 * (i / 5)
    digit n i ^^^
      ((UInt64.size - 1 - digit n (row + (i % 5 + 1) % 5)) &&& digit n (row + (i % 5 + 2) % 5))

theorem chi_pack (s : Keccak.State) : chi (pack s) = pack (Keccak.chi s) := by
  apply tabulate_eq
  intro i
  have inside (place : Nat) : 5 * (i.val / 5) + place % 5 < 25 := by omega
  simp only [digit_pack _ (inside _), digit_pack s i.isLt]
  rw [UInt64.toNat_xor, UInt64.toNat_and, UInt64.toNat_not]
  rfl

def round (n constant : Nat) : Nat :=
  chi (rhoPi (theta n)) ^^^ constant

theorem round_pack (s : Keccak.State) (constant : UInt64) :
    round (pack s) constant.toNat = pack (Keccak.round s constant) := by
  rw [round, Keccak.round, theta_pack, rhoPi_pack, chi_pack, pack_set_xor _ (by decide),
    Nat.mul_zero, Nat.shiftLeft_zero]

def permute (n : Nat) : Nat :=
  (Keccak.roundConstants.map UInt64.toNat).foldl round n

theorem permute_pack (s : Keccak.State) : permute (pack s) = pack (Keccak.permute s) := by
  rw [permute, Keccak.permute]
  induction Keccak.roundConstants generalizing s with
  | nil => rfl
  | cons constant rest ih => rw [List.map_cons, List.foldl_cons, List.foldl_cons, round_pack, ih]

/-! ## Bytes -/

/-- Where a byte begins in its word. -/
theorem bit_toUInt64 (position : Nat) :
    (8 * (position % 8)).toUInt64.toNat % 64 = 8 * (position % 8) := by
  rw [Nat.toUInt64, UInt64.toNat_ofNat']
  omega

theorem byte_shift_lt (byte : UInt8) (position : Nat) :
    byte.toNat <<< (8 * (position % 8)) < 2 ^ 64 := by
  have inside : 8 * (position % 8) ≤ 56 := by omega
  calc byte.toNat <<< (8 * (position % 8))
      = byte.toNat * 2 ^ (8 * (position % 8)) := Nat.shiftLeft_eq _ _
    _ < 2 ^ 8 * 2 ^ (8 * (position % 8)) :=
        Nat.mul_lt_mul_of_pos_right byte.toNat_lt (Nat.two_pow_pos _)
    _ ≤ 2 ^ 8 * 2 ^ 56 := Nat.mul_le_mul_left _ (Nat.pow_le_pow_right (by decide) inside)

def byteAt (n position : Nat) : UInt8 :=
  if position / 8 < 25 then UInt8.ofNat (digit n (position / 8) >>> (8 * (position % 8))) else 0

theorem byteAt_pack (s : Keccak.State) (position : Nat) :
    byteAt (pack s) position = Keccak.byteAt s position := by
  rw [byteAt, Keccak.byteAt]
  by_cases inside : position / 8 < 25
  · rw [if_pos inside, digit_pack s inside, Vector.getElem?_eq_getElem inside]
    apply UInt8.toNat_inj.mp
    rw [UInt8.toNat_ofNat', UInt64.toNat_toUInt8, UInt64.toNat_shiftRight, bit_toUInt64]
  · rw [if_neg inside, Vector.getElem?_eq_none (Nat.le_of_not_lt inside)]

def xorByte (n position : Nat) (byte : UInt8) : Nat :=
  if position / 8 < 25 then n ^^^ byte.toNat <<< (8 * position) else n

theorem xorByte_pack (s : Keccak.State) (position : Nat) (byte : UInt8) :
    xorByte (pack s) position byte = pack (Keccak.xorByte s position byte) := by
  rw [xorByte, Keccak.xorByte]
  by_cases inside : position / 8 < 25
  · rw [if_pos inside, dif_pos inside, pack_set_xor, UInt64.toNat_shiftLeft, bit_toUInt64,
      UInt8.toNat_toUInt64, Nat.mod_eq_of_lt (byte_shift_lt byte position), ← Nat.shiftLeft_add]
    congr 2
    omega
  · rw [if_neg inside, dif_neg inside]

end CommitScript.Packed

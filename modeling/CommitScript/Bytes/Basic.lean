/-! # Bytes and numbers

Byte strings as lists, and the two ways to lay a natural number out over a number of bytes. With
the lowest byte first a number too large for the width loses its high bytes; with the highest byte
first it keeps them and is longer. The main statements say that laying out and reading are inverse
to each other, up to that.
-/

namespace CommitScript

/-- A byte string. -/
abbrev Bytes := List UInt8

namespace Bytes

def ofString (s : String) : Bytes :=
  s.toList.flatMap String.utf8EncodeChar

/-- The number whose base 256 digits these are, least significant first. -/
def toNatLittle : Bytes → Nat
  | [] => 0
  | b :: rest => b.toNat + 256 * toNatLittle rest

/-- The number whose base 256 digits these are, most significant first. -/
def toNatBig (bytes : Bytes) : Nat :=
  bytes.foldl (fun n b => 256 * n + b.toNat) 0

/-- The lowest digits of a number in base 256, least significant first. -/
def ofNatLittle : Nat → Nat → Bytes
  | 0, _ => []
  | width + 1, n => UInt8.ofNat n :: ofNatLittle width (n / 256)

/-- How many bytes a number fills; zero fills none. -/
def widthOf (n : Nat) : Nat :=
  if n = 0 then 0 else n.log2 / 8 + 1

/-- The digits of a number in base 256, least significant first, with no zeros behind the highest
    one. Zero itself has one digit. -/
def digitsLittle (n : Nat) : Bytes :=
  ofNatLittle (max 1 (widthOf n)) n

/-- The digits of a number in base 256, most significant first, with zeros in front if there are
    fewer than the width asks for. -/
def ofNatBig (width n : Nat) : Bytes :=
  (digitsLittle n).reverse.leftpad width 0

@[simp]
theorem length_ofNatLittle (width n : Nat) : (ofNatLittle width n).length = width := by
  induction width generalizing n with
  | zero => rfl
  | succ width ih => simp [ofNatLittle, ih]

theorem length_ofNatBig (width n : Nat) :
    (ofNatBig width n).length = max width (max 1 (widthOf n)) := by
  rw [ofNatBig, List.length_leftpad, List.length_reverse, digitsLittle, length_ofNatLittle]

theorem ofNatBig_ne_nil (width n : Nat) : ofNatBig width n ≠ [] := by
  apply List.ne_nil_of_length_pos
  rw [length_ofNatBig]
  omega

theorem widthOf_pos {n : Nat} (h : 0 < n) : 0 < widthOf n := by
  rw [widthOf, if_neg (Nat.ne_of_gt h)]
  exact Nat.succ_pos _

theorem eq_zero_of_widthOf {n : Nat} (h : widthOf n ≤ 0) : n = 0 :=
  Nat.eq_zero_of_not_pos (mt widthOf_pos (Nat.not_lt.mpr h))

/-- A number without its lowest byte is one byte narrower. -/
theorem widthOf_div {n : Nat} (h : n ≠ 0) : widthOf n = widthOf (n / 256) + 1 := by
  by_cases small : n < 256
  · have : n.log2 < 8 := (Nat.log2_lt h).mpr small
    have : n / 256 = 0 := Nat.div_eq_of_lt small
    simp only [widthOf, h, this, if_true, if_false]
    omega
  · have quotient : n / 256 ≠ 0 := by omega
    have lower : (n / 256).log2 + 8 ≤ n.log2 := by
      rw [Nat.le_log2 h, Nat.pow_add]
      have := Nat.log2_self_le quotient
      omega
    have upper : n.log2 < (n / 256).log2 + 1 + 8 := by
      rw [Nat.log2_lt h, Nat.pow_add]
      have : n / 256 < 2 ^ ((n / 256).log2 + 1) := Nat.lt_log2_self
      omega
    simp only [widthOf, h, quotient, if_false]
    omega

/-- A larger number is no narrower. -/
theorem widthOf_mono {m n : Nat} (h : m ≤ n) : widthOf m ≤ widthOf n := by
  unfold widthOf
  split
  · exact Nat.zero_le _
  · next hm =>
    have := (Nat.le_log2 (by omega)).mpr (Nat.le_trans (Nat.log2_self_le hm) h)
    rw [if_neg (by omega)]
    omega

/-- All numbers below a modulus take as many bytes as it does. -/
theorem length_ofNatBig_of_lt {modulus n : Nat} (h : n < modulus) :
    (ofNatBig (widthOf modulus) n).length = widthOf modulus := by
  have positive := widthOf_pos (Nat.zero_lt_of_lt h)
  have fits := widthOf_mono (Nat.le_of_lt h)
  rw [length_ofNatBig]
  omega

theorem widthOf_div_le {width n : Nat} (h : widthOf n ≤ width + 1) :
    widthOf (n / 256) ≤ width := by
  cases Decidable.em (n = 0) with
  | inl hzero => rw [hzero]; exact Nat.zero_le _
  | inr hpos => rw [widthOf_div hpos] at h; omega

/-- A number that is no wider than its bytes reads back. -/
theorem toNatLittle_ofNatLittle {width n : Nat} (h : widthOf n ≤ width) :
    toNatLittle (ofNatLittle width n) = n := by
  induction width generalizing n with
  | zero =>
      rw [eq_zero_of_widthOf h]
      rfl
  | succ width ih =>
      have digit : (UInt8.ofNat n).toNat = n % 256 := UInt8.toNat_ofNat'
      rw [ofNatLittle, toNatLittle, digit, ih (widthOf_div_le h)]
      omega

theorem toNatBig_reverse (bytes : Bytes) : toNatBig bytes.reverse = toNatLittle bytes := by
  rw [toNatBig, List.foldl_reverse]
  induction bytes with
  | nil => rfl
  | cons b rest ih => rw [List.foldr_cons, ih, toNatLittle, Nat.add_comm]

theorem toNatLittle_zeros (count : Nat) : toNatLittle (List.replicate count 0) = 0 := by
  induction count with
  | zero => rfl
  | succ count ih => rw [List.replicate_succ, toNatLittle, ih, UInt8.toNat_zero]

/-- Zeros behind the highest digit leave a number as it is. -/
theorem toNatLittle_append_zeros (bytes : Bytes) (count : Nat) :
    toNatLittle (bytes ++ List.replicate count 0) = toNatLittle bytes := by
  induction bytes with
  | nil => exact toNatLittle_zeros count
  | cons b rest ih => rw [List.cons_append, toNatLittle, ih, toNatLittle]

theorem toNatLittle_digitsLittle (n : Nat) : toNatLittle (digitsLittle n) = n :=
  toNatLittle_ofNatLittle (Nat.le_max_right _ _)

theorem ofNatBig_eq_reverse (width n : Nat) :
    ofNatBig width n =
      (digitsLittle n ++ List.replicate (width - (digitsLittle n).length) 0).reverse := by
  rw [ofNatBig, List.leftpad, List.length_reverse, List.reverse_append, List.reverse_replicate]

/-- No digit is lost, so a number reads back. -/
theorem toNatBig_ofNatBig (width n : Nat) : toNatBig (ofNatBig width n) = n := by
  rw [ofNatBig_eq_reverse, toNatBig_reverse, toNatLittle_append_zeros, toNatLittle_digitsLittle]

theorem ofNatLittle_zero (width : Nat) : ofNatLittle width 0 = List.replicate width 0 := by
  induction width with
  | zero => rfl
  | succ width ih => rw [ofNatLittle, Nat.zero_div, ih, List.replicate_succ]; rfl

/-- All that is behind the digits of a number is zero. -/
theorem ofNatLittle_of_le {narrow width n : Nat} (h : widthOf n ≤ narrow) (wider : narrow ≤ width) :
    ofNatLittle width n = ofNatLittle narrow n ++ List.replicate (width - narrow) 0 := by
  induction narrow generalizing width n with
  | zero =>
      rw [eq_zero_of_widthOf h, ofNatLittle_zero]
      rfl
  | succ narrow ih =>
      obtain ⟨width, rfl⟩ : ∃ w, width = w + 1 := ⟨width - 1, by omega⟩
      rw [ofNatLittle, ofNatLittle, ih (widthOf_div_le h) (by omega), Nat.add_sub_add_right]
      rfl

/-- Where a number is no wider than the bytes for it, it is laid out as with the lowest byte first,
    but the other way round. -/
theorem ofNatBig_of_le {width n : Nat} (positive : 0 < width) (h : widthOf n ≤ width) :
    ofNatBig width n = (ofNatLittle width n).reverse := by
  have fits : max 1 (widthOf n) ≤ width := by omega
  rw [ofNatBig_eq_reverse, ofNatLittle_of_le (Nat.le_max_right 1 _) fits, digitsLittle,
    length_ofNatLittle]

/-- Without its lowest digit a number is the number of the others. -/
theorem add_digit_div (b : UInt8) (n : Nat) : (b.toNat + 256 * n) / 256 = n := by
  have := b.toNat_lt
  omega

theorem widthOf_toNatLittle_le (bytes : Bytes) : widthOf (toNatLittle bytes) ≤ bytes.length := by
  induction bytes with
  | nil => exact Nat.zero_le _
  | cons b rest ih =>
      rw [toNatLittle, List.length_cons]
      cases Decidable.em (b.toNat + 256 * toNatLittle rest = 0) with
      | inl hzero => rw [hzero]; exact Nat.zero_le _
      | inr hpos => rw [widthOf_div hpos, add_digit_div]; omega

theorem ofNatLittle_toNatLittle (bytes : Bytes) :
    ofNatLittle bytes.length (toNatLittle bytes) = bytes := by
  induction bytes with
  | nil => rfl
  | cons b rest ih =>
      have digit : UInt8.ofNat (b.toNat + 256 * toNatLittle rest) = b := by
        apply UInt8.toNat_inj.mp
        rw [UInt8.toNat_ofNat', Nat.add_mul_mod_self_left]
        exact Nat.mod_eq_of_lt b.toNat_lt
      rw [List.length_cons, toNatLittle, ofNatLittle, add_digit_div, digit, ih]

/-- Laying a number out over as many bytes as it was read from gives those bytes. -/
theorem ofNatBig_toNatBig {bytes : Bytes} (some : 0 < bytes.length) :
    ofNatBig bytes.length (toNatBig bytes) = bytes := by
  have same := ofNatLittle_toNatLittle bytes.reverse
  have fits := widthOf_toNatLittle_le bytes.reverse
  rw [List.length_reverse, ← toNatBig_reverse, List.reverse_reverse] at same fits
  rw [ofNatBig_of_le some fits, same, List.reverse_reverse]

end Bytes

end CommitScript

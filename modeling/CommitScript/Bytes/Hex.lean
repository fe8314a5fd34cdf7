import CommitScript.Bytes.Basic
import CommitScript.Text.Quoted

/-! # Hexadecimal text

Two hexadecimal digits for each byte. Writing uses lowercase digits; reading takes either
case and locates the first byte of the text that is not a digit. The main statement says that
reading undoes writing.
-/

namespace CommitScript

/-- Why a text is not hexadecimal. -/
inductive HexError where
  /-- The text has an odd number of bytes. -/
  | oddLength
  /-- A byte of the text is no digit; bytes are counted from zero. -/
  | notDigit (byte : UInt8) (index : Nat)
  deriving Repr, DecidableEq

/-- The wording of a hexadecimal fault. A byte is shown as the character of that code. -/
def HexError.message : HexError → String
  | oddLength => "Odd number of digits"
  | notDigit byte index =>
      let shown := Text.quoteChar (Char.ofNat byte.toNat)
      s!"Invalid character {shown} at position {index}"

namespace Hex

/-- The lowercase digit of a value below sixteen. -/
def digit (value : Nat) : Char :=
  Nat.digitChar value

/-- The value of a digit, given as an ASCII byte. -/
def value? (byte : UInt8) : Option Nat :=
  let n := byte.toNat
  if 0x30 ≤ n ∧ n ≤ 0x39 then some (n - 0x30)
  else if 0x61 ≤ n ∧ n ≤ 0x66 then some (n - 0x61 + 10)
  else if 0x41 ≤ n ∧ n ≤ 0x46 then some (n - 0x41 + 10)
  else none

/-- Two lowercase digits for each byte. -/
def encode (bytes : Bytes) : String :=
  String.ofList (bytes.flatMap fun b => [digit (b.toNat / 16), digit (b.toNat % 16)])

/-- Reads digits in pairs; the index counts the bytes of the text before them. -/
def decodePairs (index : Nat) : Bytes → Except HexError Bytes
  | [] => .ok []
  | [_] => .error .oddLength
  | high :: low :: rest =>
      match value? high, value? low with
      | none, _ => .error (.notDigit high index)
      | some _, none => .error (.notDigit low (index + 1))
      | some h, some l => (decodePairs (index + 2) rest).map (UInt8.ofNat (16 * h + l) :: ·)

/-- Reads a text of digits. An odd number of bytes is refused before any byte is looked at. -/
def decode (text : String) : Except HexError Bytes :=
  let bytes := Bytes.ofString text
  if bytes.length % 2 = 1 then .error .oddLength else decodePairs 0 bytes

/-- A digit is one byte of text, and that byte has the digit's value. -/
theorem value?_digit {n : Nat} (h : n < 16) :
    String.utf8EncodeChar (digit n) = [(digit n).toUInt8] ∧ value? (digit n).toUInt8 = some n :=
  have all : ∀ n : Fin 16, String.utf8EncodeChar (digit n) = [(digit n).toUInt8] ∧
      value? (digit n).toUInt8 = some n.val := by decide
  all ⟨n, h⟩

/-- The bytes of a written text, a digit for each half of a byte. -/
theorem ofString_encode (bytes : Bytes) :
    Bytes.ofString (encode bytes) =
      bytes.flatMap fun b => [(digit (b.toNat / 16)).toUInt8, (digit (b.toNat % 16)).toUInt8] := by
  rw [Bytes.ofString, encode, String.toList_ofList, List.flatMap_assoc]
  congr 1
  funext b
  have high := (value?_digit (n := b.toNat / 16) (by have := b.toNat_lt; omega)).1
  have low := (value?_digit (n := b.toNat % 16) (Nat.mod_lt _ (by decide))).1
  simp [high, low]

theorem length_ofString_encode (bytes : Bytes) :
    (Bytes.ofString (encode bytes)).length = 2 * bytes.length := by
  rw [ofString_encode]
  induction bytes with
  | nil => rfl
  | cons b rest ih => simp only [List.flatMap_cons, List.length_append, List.length_cons,
      List.length_nil, ih]; omega

/-- Reading pairs of digits undoes writing them, wherever the text starts. -/
theorem decodePairs_encode (index : Nat) (bytes : Bytes) :
    decodePairs index (Bytes.ofString (encode bytes)) = .ok bytes := by
  rw [ofString_encode]
  induction bytes generalizing index with
  | nil => rfl
  | cons b rest ih =>
      have high := (value?_digit (n := b.toNat / 16) (by have := b.toNat_lt; omega)).2
      have low := (value?_digit (n := b.toNat % 16) (Nat.mod_lt _ (by decide))).2
      have whole : UInt8.ofNat (16 * (b.toNat / 16) + b.toNat % 16) = b := by
        rw [Nat.div_add_mod]
        exact UInt8.ofNat_toNat
      simp only [List.flatMap_cons, List.cons_append, List.nil_append, decodePairs, high, low, ih,
        whole, Except.map]

/-- Reading undoes writing. -/
theorem decode_encode (bytes : Bytes) : decode (encode bytes) = .ok bytes := by
  have even : (Bytes.ofString (encode bytes)).length % 2 = 0 := by
    rw [length_ofString_encode]
    omega
  simp [decode, even, decodePairs_encode]

end Hex

end CommitScript

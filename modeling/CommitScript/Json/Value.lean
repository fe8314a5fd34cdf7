import CommitScript.Text.Integer

/-! # JSON values

The values of a JSON text before anyone has decided what they mean: numbers keep their
literal, and strings keep each escaped code unit apart, since a lone surrogate is a fault only
where the string is used.
-/

namespace CommitScript

/-- A character of a JSON string, or a code unit that was written as four digits. -/
inductive JsonUnit where
  | char (c : Char)
  | code (unit : Nat)
  deriving Repr, DecidableEq

inductive JsonValue where
  | null
  | bool (value : Bool)
  /-- A number by its literal. -/
  | number (literal : List Char)
  | string (units : List JsonUnit)
  | array (items : List JsonValue)
  /-- The members in the order of the text, repeated names included. -/
  | object (members : List (List JsonUnit × JsonValue))
  deriving Repr

namespace JsonUnit

/-- The characters of a string; none if a surrogate stands alone. -/
def characters? : List JsonUnit → Option (List Char)
  | [] => some []
  | char c :: rest => (characters? rest).map (c :: ·)
  | code high :: code low :: rest =>
      if 0xD800 ≤ high ∧ high ≤ 0xDBFF then
        if 0xDC00 ≤ low ∧ low ≤ 0xDFFF then
          let c := Char.ofNat (0x10000 + (high - 0xD800) * 0x400 + (low - 0xDC00))
          (characters? rest).map (c :: ·)
        else none
      else if 0xDC00 ≤ high ∧ high ≤ 0xDFFF then none
      else (characters? (code low :: rest)).map (Char.ofNat high :: ·)
  | code unit :: rest =>
      if 0xD800 ≤ unit ∧ unit ≤ 0xDFFF then none
      else (characters? rest).map (Char.ofNat unit :: ·)

/-- The string that some units spell. -/
def string? (units : List JsonUnit) : Option String :=
  (characters? units).map String.ofList

end JsonUnit

namespace JsonValue

/-- The string of a value that is one. -/
def string? : JsonValue → Option String
  | string units => JsonUnit.string? units
  | _ => none

/-- The integer of a number without fraction and exponent that fits 64 bits, signed or
    unsigned. A negative zero is no integer. -/
def integer64? : JsonValue → Option Int
  | number ('-' :: digits) => do
      let n ← Text.digits? digits
      if 0 < n ∧ n ≤ 1 <<< 63 then some (-(n : Int)) else none
  | number digits => do
      let n ← Text.digits? digits
      if n < 1 <<< 64 then some (n : Int) else none
  | _ => none

end JsonValue

end CommitScript

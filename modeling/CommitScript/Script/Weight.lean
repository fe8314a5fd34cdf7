import CommitScript.Text.Integer
import CommitScript.Script.Error

/-! # Weights

The factor of a term in a sum. It is written as an integer with at most one sign, as a
decimal fraction that opens with a point, or as the inverse of an integer that opens with a
slash. A fraction keeps its number of digits, so it is written as it was read; the number is kept
in 32 bits, and a literal with more digits than that can count is refused.
-/

namespace CommitScript

/-- The factor of a term. -/
inductive Weight where
  /-- A whole number. -/
  | integer (value : Int)
  /-- A numerator over ten to the number of places. -/
  | fraction (numerator places : Nat)
  /-- One over an integer. -/
  | inverse (divisor : Nat)
  deriving Repr, DecidableEq

namespace Weight

/-- The factor that changes nothing. -/
def one : Weight :=
  integer 1

/-- Reads a weight from its characters. A divisor of zero is refused, and so is a fraction whose
    digits 32 bits do not count. -/
def ofChars? : List Char → Option Weight
  | '.' :: digits =>
      -- The bytes are what is counted: as many as the characters, if these are digits at all.
      if digits.length < UInt32.size then
        (Text.digits? digits).map fun n => fraction n digits.length
      else none
  | '/' :: digits => (Text.digits? digits).bind fun n => if n = 0 then none else some (inverse n)
  | '-' :: digits => (Text.digits? digits).map fun n => integer (-n)
  | '+' :: digits => (Text.digits? digits).map fun n => integer n
  | digits => (Text.digits? digits).map fun n => integer n

/-- Reads a weight; the fault repeats the whole literal. -/
def read (literal : String) : Except ScriptError Weight :=
  match ofChars? literal.toList with
  | some weight => .ok weight
  | none => .error (.invalidWeight literal)

/-- The weight as it is written in a script. -/
def write : Weight → String
  | integer value => Text.signedDecimal value
  | fraction numerator places =>
      "." ++ String.ofList ((Text.decimal numerator).toList.leftpad places '0')
  | inverse divisor => "/" ++ Text.decimal divisor

end Weight

end CommitScript

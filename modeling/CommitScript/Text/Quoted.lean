/-! # Quoted characters

A character between single quotes for use in a message. Characters that cannot be seen are
written as an escape.
-/

namespace CommitScript.Text

/-- The digits of a number in lowercase hexadecimal, without leading zeros. -/
def hexDigits (n : Nat) : String :=
  String.ofList (Nat.toDigits 16 n)

/-- Whether a character below code 256 shows ink or is the plain space: neither a control
    character nor the no-break space nor the soft hyphen. -/
def isVisible (c : Char) : Bool :=
  let n := c.toNat
  0x20 ≤ n && n != 0x7F && !(0x80 ≤ n && n ≤ 0xA0) && n != 0xAD

/-- A character below code 256 between single quotes. -/
def quoteChar (c : Char) : String :=
  let body :=
    if c == '\x00' then "\\0"
    else if c == '\t' then "\\t"
    else if c == '\n' then "\\n"
    else if c == '\r' then "\\r"
    else if c == '\'' then "\\'"
    else if c == '\\' then "\\\\"
    else if isVisible c then c.toString
    else "\\u\x7b" ++ hexDigits c.toNat ++ "\x7d"
  "'" ++ body ++ "'"

end CommitScript.Text

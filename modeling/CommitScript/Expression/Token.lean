import CommitScript.Text.Blank
import CommitScript.Text.Integer
import CommitScript.Text.Letter

/-! # Tokens of an expression

An expression is cut into numbers, names, operators and brackets before anything is
evaluated. Blank characters may stand between tokens; numbers and names are as long as they
can be.
-/

namespace CommitScript

inductive Operator where
  | plus
  | minus
  | times
  | divide
  | power
  deriving Repr, DecidableEq

def Operator.mark : Operator → Char
  | plus => '+'
  | minus => '-'
  | times => '*'
  | divide => '/'
  | power => '^'

inductive Token where
  | number (value : Nat)
  | name (text : String)
  | operator (op : Operator)
  | opening
  | closing
  deriving Repr, DecidableEq

namespace Token

/-- A token in the words of a message. -/
def describe : Token → String
  | number value => s!"number {Text.decimal value}"
  | name text => s!"identifier '{text}'"
  | operator op => s!"operator '{op.mark}'"
  | opening => "'('"
  | closing => "')'"

/-- The token of a single character. -/
def ofMark? (c : Char) : Option Token :=
  if c = '+' then some (operator .plus)
  else if c = '-' then some (operator .minus)
  else if c = '*' then some (operator .times)
  else if c = '/' then some (operator .divide)
  else if c = '^' then some (operator .power)
  else if c = '(' then some opening
  else if c = ')' then some closing
  else none

/-- Whether a name can start with a character. -/
def opensName (c : Char) : Bool :=
  Text.isLetter c || c == '_'

/-- Whether a name can go on with a character. -/
def continuesName (c : Char) : Bool :=
  Text.isLetter c || Text.isNumeral c || c == '_'

/-- Cuts a text into tokens; a character that belongs to none is the fault. -/
def ofChars : List Char → Except Char (List Token)
  | [] => .ok []
  | c :: text =>
      if Text.isBlank c then
        ofChars text
      else if c.isDigit then
        let digits := c :: text.takeWhile Char.isDigit
        (ofChars (text.dropWhile Char.isDigit)).map (number (Text.digitsValue digits) :: ·)
      else if opensName c then
        let letters := c :: text.takeWhile continuesName
        (ofChars (text.dropWhile continuesName)).map (name (String.ofList letters) :: ·)
      else
        match ofMark? c with
        | some token => (ofChars text).map (token :: ·)
        | none => .error c
termination_by text => text.length
decreasing_by
  · simp
  · exact Nat.lt_succ_of_le (List.dropWhile_sublist _).length_le
  · exact Nat.lt_succ_of_le (List.dropWhile_sublist _).length_le
  · simp

end Token

end CommitScript

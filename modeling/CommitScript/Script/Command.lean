import CommitScript.Script.Record
import CommitScript.Script.Weight

/-! # Commands

A command of a script, decoded from one record and written back as one record. Names and
expressions are never empty in a command that was read.
-/

namespace CommitScript

/-- One statement of a script. -/
inductive Command where
  /-- Binds a name to an input of that name. -/
  | input (name : String)
  /-- Binds a name to the value of an expression over earlier names. -/
  | commit (name expression : String)
  /-- Binds a name to a weighted sum of earlier names. -/
  | sum (name : String) (terms : List (Weight × String))
  /-- Claims that a name hides a value. -/
  | equal (name : String) (value : Int)
  /-- Binds a name to the square of an earlier one. -/
  | square (name source : String)
  /-- Claims that two names hide the same secret. -/
  | same (left right : String)
  /-- Shows every binding to the prover. -/
  | log
  deriving Repr, DecidableEq

namespace Command

/-- What the command does. -/
def opcode : Command → Opcode
  | input _ => .input
  | commit _ _ => .commit
  | sum _ _ => .sum
  | equal _ _ => .equal
  | square _ _ => .square
  | same _ _ => .same
  | log => .log

/-- The fields of a sum's terms, weight before name. -/
def termFields : List (Weight × String) → List String
  | [] => []
  | (weight, name) :: terms => weight.write :: name :: termFields terms

/-- The fields after the opcode. -/
def operands : Command → List String
  | input name => [name]
  | commit name expression => [name, expression]
  | sum name terms => name :: termFields terms
  | equal name value => [name, Text.signedDecimal value]
  | square name source => [name, source]
  | same left right => [left, right]
  | log => []

def fields (command : Command) : List String :=
  command.opcode.name :: command.operands

def write (command : Command) : String :=
  Record.write command.fields

/-- The operand at a position, counted from one, which has to name a variable. -/
def nameAt (position : Nat) (operand : String) : Except OperandFault String :=
  if operand.isEmpty then .error (.unnamed position) else .ok operand

/-- The terms of a sum, from operands that start at a position. -/
def readTerms (position : Nat) : List String → Except OperandFault (List (Weight × String))
  | [] => .ok []
  | [_] => .error .unpaired
  | literal :: operand :: rest => do
      let some weight := Weight.ofChars? literal.toList | throw (.weight literal)
      let name ← nameAt (position + 1) operand
      let terms ← readTerms (position + 2) rest
      return (weight, name) :: terms

/-- The parts of a sum. The number of operands is checked first, then the terms from left to
    right, then the name. -/
def readSum (operands : List String) : Except OperandFault Command :=
  match operands with
  | name :: literal :: operand :: rest =>
      if rest.length % 2 = 0 then do
        let terms ← readTerms 2 (literal :: operand :: rest)
        let name ← nameAt 1 name
        return sum name terms
      else
        .error .unpaired
  | _ => .error .unpaired

/-- Puts the place of an operand fault in front of it. -/
def located {α : Type} (record : Record) (opcode : Opcode) :
    Except OperandFault α → Except ScriptError α
  | .ok value => .ok value
  | .error fault => .error (.invalidOperands record.number opcode fault)

/-- Decodes the operands of a record whose opcode is known. The number of operands comes
    first, then an expression or a literal, then the names from left to right. -/
def ofOperands (record : Record) (opcode : Opcode) : Except ScriptError Command :=
  let operands := record.operands
  let refuse (fault : OperandFault) : Except ScriptError Command :=
    .error (.invalidOperands record.number opcode fault)
  let arity (expected : Nat) := refuse (.arity expected operands.length)
  match opcode, operands with
  | .input, [name] => do
      let name ← located record .input (nameAt 1 name)
      return input name
  | .input, _ => arity 1
  | .commit, [name, expression] =>
      if expression.isEmpty then refuse .noExpression
      else do
        let name ← located record .commit (nameAt 1 name)
        return commit name expression
  | .commit, _ => arity 2
  | .sum, operands => located record .sum (readSum operands)
  | .equal, [name, literal] =>
      match Text.integer? literal.toList with
      | none => .error (.invalidLiteral record.number literal)
      | some value => do
          let name ← located record .equal (nameAt 1 name)
          return equal name value
  | .equal, _ => arity 2
  | .square, [name, source] => do
      let name ← located record .square (nameAt 1 name)
      let source ← located record .square (nameAt 2 source)
      return square name source
  | .square, _ => arity 2
  | .same, [left, right] => do
      let left ← located record .same (nameAt 1 left)
      let right ← located record .same (nameAt 2 right)
      return same left right
  | .same, _ => arity 2
  | .log, [] => return log
  | .log, _ => arity 0

def ofRecord (record : Record) : Except ScriptError Command :=
  match Opcode.ofName? record.opcode with
  | none => .error (.unknownOpcode record.number record.opcode)
  | some opcode => ofOperands record opcode

end Command

end CommitScript

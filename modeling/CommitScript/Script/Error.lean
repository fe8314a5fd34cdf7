import CommitScript.Script.Opcode

/-! # Faults of a script

Why a script text is refused. Records are counted from one, blank ones included, so a fault
can be located in the text.
-/

namespace CommitScript

/-- Why the operands of a known opcode are refused. -/
inductive OperandFault where
  /-- A command with a fixed number of operands has another number of them. -/
  | arity (expected actual : Nat)
  /-- An operand that has to name a variable is empty; operands are counted from one. -/
  | unnamed (operand : Nat)
  /-- The expression of a commitment is empty. -/
  | noExpression
  /-- The operands of a sum are not a name and one or more pairs. -/
  | unpaired
  /-- The weight of a term cannot be read. -/
  | weight (literal : String)
  deriving Repr, DecidableEq

/-- Why a script text, a record or a weight is refused. -/
inductive ScriptError where
  /-- The text ends inside a record. -/
  | unterminated (record : Nat)
  /-- No command has this name. -/
  | unknownOpcode (record : Nat) (name : String)
  /-- The operands do not fit the command. -/
  | invalidOperands (record : Nat) (opcode : Opcode) (fault : OperandFault)
  /-- A weight that stands alone cannot be read. -/
  | invalidWeight (literal : String)
  /-- A claimed value is not an integer literal. -/
  | invalidLiteral (record : Nat) (literal : String)
  deriving Repr, DecidableEq

/-- The wording of a weight that cannot be read, alone or inside a sum. -/
private def weightMessage (literal : String) : String :=
  s!"invalid weight literal '{literal}'"

def OperandFault.message : OperandFault → String
  | arity expected actual => s!"expected {expected} operands, got {actual}"
  | unnamed operand => s!"operand {operand} must be a variable name"
  | noExpression => "empty expression"
  | unpaired => "expected a name followed by one or more (weight, variable) pairs"
  | weight literal => weightMessage literal

def ScriptError.message : ScriptError → String
  | unterminated record => s!"record {record} is not terminated by ';'"
  | unknownOpcode record name => s!"record {record}: unknown opcode '{name}'"
  | invalidOperands record opcode fault =>
      s!"record {record}: invalid operands for '{opcode.name}': {fault.message}"
  | invalidWeight literal => weightMessage literal
  | invalidLiteral record literal => s!"record {record}: invalid integer literal '{literal}'"

end CommitScript

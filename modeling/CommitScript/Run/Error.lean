import CommitScript.Expression.Value
import CommitScript.Proof.Kind
import CommitScript.Script.Error

/-! # Faults of a run

Why a prover or a verifier stops. A proof that fails its check is no fault; it is an outcome
of the report.
-/

namespace CommitScript

/-- Why a run of a script, or the reading of what it needs, ends early. -/
inductive RunError where
  | algebra (fault : AlgebraError)
  | proof (fault : ProofError)
  | script (fault : ScriptError)
  /-- A name that no earlier command has bound. -/
  | undefined (name : String)
  /-- A script asks for an input that was not given. -/
  | missingInput (name : String)
  /-- An input's text is no integer. -/
  | invalidInput (name value : String)
  /-- An expression has no value. -/
  | expression (text : String) (fault : ExpressionFault)
  /-- A receipt ends before a command has its records. -/
  | underrun (record : Nat) (opcode : Opcode)
  /-- A receipt has more records than the script asks for. -/
  | overrun (remaining : Nat)
  /-- A record has another number of fields than the command asks for. -/
  | malformed (record : Nat) (opcode : Opcode) (expected actual : Nat)
  /-- A text is not the JSON that is asked for. -/
  | json
  deriving Repr, DecidableEq

/-- The wording of a run's fault. -/
def RunError.message : RunError → String
  | algebra fault => fault.message
  | proof fault => fault.message
  | script fault => fault.message
  | undefined name => s!"undefined variable '{name}'"
  | missingInput name => s!"no input named '{name}'"
  | invalidInput name value => s!"invalid value for input '{name}': {value}"
  | expression text fault => s!"cannot evaluate '{text}': {fault.message}"
  | underrun record opcode =>
      s!"transcript ended before record {record} needed by '{opcode.name}'"
  | overrun remaining =>
      s!"transcript has {remaining} unread records after the script finished"
  | malformed record opcode expected actual =>
      s!"transcript record {record} for '{opcode.name}' has {actual} fields, expected {expected}"
  | json => "JSON error: not the value that was expected"

/-- The fault that an expression's evaluation gives a run. -/
def EvaluationError.toRunError (text : String) : EvaluationError → RunError
  | fault f => .expression text f
  | undefined name => .undefined name

end CommitScript

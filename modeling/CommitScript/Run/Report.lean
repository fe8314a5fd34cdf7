import CommitScript.Script.Opcode
import CommitScript.Text.Integer

/-! # Reports

The verdict on each claim of a script. A report with no outcomes counts as passed.
-/

namespace CommitScript

/-- The verdict on one claim. -/
structure Outcome where
  /-- Position of the command among all commands of the script, counted from one. -/
  index : Nat
  opcode : Opcode
  /-- The name that the claim is about. -/
  name : String
  /-- The command as it is written. -/
  statement : String
  passed : Bool
  deriving Repr, DecidableEq

/-- The verdicts on the claims of a script, in order. -/
structure Report where
  outcomes : List Outcome
  deriving Repr, DecidableEq

/-- A verdict on one line: the index in a column of three characters, the statement in one of
    twenty-four. -/
def Outcome.line (outcome : Outcome) : String :=
  let index := String.ofList ((Text.decimal outcome.index).toList.leftpad 3 ' ')
  let statement := String.ofList (outcome.statement.toList.rightpad 24 ' ')
  let verdict := if outcome.passed then "ok" else "FAILED"
  "[" ++ index ++ "] " ++ statement ++ " " ++ verdict

namespace Report

def allPassed (report : Report) : Bool :=
  report.outcomes.all Outcome.passed

def failures (report : Report) : List Outcome :=
  report.outcomes.filter fun outcome => !outcome.passed

def failedNames (report : Report) : List String :=
  report.failures.map Outcome.name

def passedCount (report : Report) : Nat :=
  report.outcomes.countP Outcome.passed

/-- The text of a report: a line for each claim and a line that counts them. -/
def write (report : Report) : String :=
  String.join (report.outcomes.map fun outcome => outcome.line ++ "\n") ++
    Text.decimal report.passedCount ++ "/" ++ Text.decimal report.outcomes.length ++
    " statements verified"

end Report

end CommitScript

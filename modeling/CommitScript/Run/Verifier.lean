import CommitScript.Proof.Basic
import CommitScript.Run.Event
import CommitScript.Run.Opening
import CommitScript.Run.Receipt
import CommitScript.Run.Report
import CommitScript.Script.Basic

/-! # The verifier

Replays a script against a receipt, without any secret. It takes records where the prover
wrote them and says the same into its history, so challenges agree as long as both sides saw
the same. A proof that fails its check becomes an outcome; only a receipt that does not fit
the script is a fault.
-/

namespace CommitScript

variable {Element : Type}

/-- A verifier between two commands. -/
structure Verifier (Element : Type) where
  bindings : Table Element
  reader : ReceiptReader
  history : ChallengeHistory
  /-- The verdicts so far, in order. -/
  outcomes : List Outcome
  /-- How many commands have been started. -/
  executed : Nat
  /-- The events so far, in order. -/
  events : List Event

/-- Steps of a verifier. A fault keeps the state in which it arose. -/
abbrev Verifying (Element : Type) := EStateM RunError (Verifier Element)

namespace Verifier

def start (key : CommitmentKey Element) (receipt : Receipt) : Verifier Element where
  bindings := .empty
  reader := .ofReceipt receipt
  history := key.history
  outcomes := []
  executed := 0
  events := []

def emit (level : EventLevel) (message : String) (fields : List (String × String)) :
    Verifying Element Unit :=
  modify fun verifier => { verifier with events := verifier.events ++ [{ level, message, fields }] }

def define (name : String) (commitment : Element) : Verifying Element Unit :=
  modify fun verifier => { verifier with bindings := verifier.bindings.insert name commitment }

def commitment (name : String) : Verifying Element Element := do
  ofExcept ((← get).bindings.find name)

/-- Takes a record with a number of fields. -/
def takeRecord (opcode : Opcode) (count : Nat) : Verifying Element (List String) := do
  let (fields, reader) ← ofExcept ((← get).reader.next opcode count)
  modify fun verifier => { verifier with reader := reader }
  return fields

/-- Takes a record that holds one element. -/
def takeElement (key : CommitmentKey Element) (opcode : Opcode) : Verifying Element Element := do
  let fields ← takeRecord opcode 1
  ofExcept ((key.group.ofHex (fields.headD "")).mapError .algebra)

def takeProof (key : CommitmentKey Element) (opcode : Opcode) (kind : ProofKind) :
    Verifying Element (Proof Element) := do
  let fields ← takeRecord opcode kind.fieldCount
  ofExcept ((Proof.ofFields key kind fields).mapError .proof)

/-- Checks a proof and notes the verdict on a command about a name. -/
def judge [DecidableEq Element] (key : CommitmentKey Element) (command : Command) (name : String)
    (claim : Claim Element) (proof : Proof Element) : Verifying Element Unit := do
  let verifier ← get
  let (passed, history) ←
    ofExcept ((Proof.verify key verifier.history claim proof).mapError .proof)
  let outcome : Outcome :=
    { index := verifier.executed, opcode := command.opcode, name, statement := command.write,
      passed }
  modify fun verifier => { verifier with history := history }
  if passed then
    emit .debug "verified" [("statement", outcome.statement)]
  else
    emit .warn "verification failed"
      [("statement", outcome.statement), ("index", Text.decimal outcome.index)]
  modify fun verifier => { verifier with outcomes := verifier.outcomes ++ [outcome] }

/-- Takes a fresh commitment and binds a name to it. -/
def receive (key : CommitmentKey Element) (opcode : Opcode) (name : String) :
    Verifying Element Unit := do
  let commitment ← takeElement key opcode
  modify fun verifier =>
    { verifier with
      history := verifier.history.message "commitment" (key.group.encode commitment) }
  emit .debug "commitment" [("name", name), ("opcode", opcode.name)]
  define name commitment

def execute [DecidableEq Element] (key : CommitmentKey Element) (command : Command) :
    Verifying Element Unit := do
  modify fun verifier => { verifier with executed := verifier.executed + 1 }
  match command with
  | .input name => receive key .input name
  | .commit name _ => receive key .commit name
  | .sum name terms =>
      let combined ← ofExcept (combineCommitments key (← get).bindings terms)
      emit .debug "sum" [("name", name), ("terms", Text.decimal terms.length)]
      define name combined
  | .equal name value =>
      let commitment ← commitment name
      let proof ← takeProof key .equal .value
      judge key command name (.value commitment (key.field.ofInt value)) proof
  | .square name source =>
      let source ← commitment source
      let squared ← takeElement key .square
      let proof ← takeProof key .square .square
      judge key command name (.square source squared) proof
      define name squared
  | .same left right =>
      let first ← commitment left
      let second ← commitment right
      let proof ← takeProof key .same .same
      judge key command left (.same first second) proof
  | .log => return

/-- Runs the commands of a script in order, up to the first fault. -/
def run [DecidableEq Element] (key : CommitmentKey Element) (script : Script) :
    Verifying Element Unit :=
  script.commands.forM (execute key)

/-- Closes a run; every record has to have been taken. -/
def finish : Verifying Element Report := do
  let verifier ← get
  ofExcept verifier.reader.finish
  let report : Report := { outcomes := verifier.outcomes }
  emit .info "verification complete"
    [("passed", Text.decimal report.passedCount),
     ("total", Text.decimal report.outcomes.length)]
  return report

/-- Runs a whole script and closes the run. -/
def replay [DecidableEq Element] (key : CommitmentKey Element) (script : Script) :
    Verifying Element Report := do
  run key script
  finish

end Verifier

/-- Replays a script against a receipt from the start and gives the report. -/
def CommitmentKey.verify [DecidableEq Element] (key : CommitmentKey Element) (script : Script)
    (receipt : Receipt) : Except RunError Report :=
  match Verifier.replay key script (.start key receipt) with
  | .ok report _ => .ok report
  | .error fault _ => .error fault

end CommitScript

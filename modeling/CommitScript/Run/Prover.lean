import CommitScript.Commitment.Tape
import CommitScript.Proof.Basic
import CommitScript.Run.Event
import CommitScript.Run.Inputs
import CommitScript.Run.Opening
import CommitScript.Run.Receipt
import CommitScript.Script.Basic

/-! # The prover

Runs a script over secrets and writes a receipt. Inputs and expressions publish a fresh
commitment, claims publish a proof, sums and logs publish nothing. Everything that can fail in
a command comes before anything is drawn, said or written.
-/

namespace CommitScript

variable {Element : Type}

/-- What a prover works with. -/
structure ProverTask (Element : Type) where
  key : CommitmentKey Element
  inputs : Inputs
  tape : Tape

/-- A prover between two commands. -/
structure Prover (Element : Type) where
  bindings : Table Opening
  /-- How many bytes of the tape have been used. -/
  drawn : Nat
  history : ChallengeHistory
  /-- The records written so far, in order. -/
  records : List (List String)
  /-- How many commands have been started. -/
  executed : Nat
  /-- The events so far, in order. -/
  events : List Event

/-- Steps of a prover. A fault keeps the state in which it arose. -/
abbrev Proving (Element : Type) := EStateM RunError (Prover Element)

namespace Prover

def start (key : CommitmentKey Element) : Prover Element where
  bindings := .empty
  drawn := 0
  history := key.history
  records := []
  executed := 0
  events := []

def emit (level : EventLevel) (message : String) (fields : List (String × String)) :
    Proving Element Unit :=
  modify fun prover => { prover with events := prover.events ++ [{ level, message, fields }] }

def write (fields : List String) : Proving Element Unit :=
  modify fun prover => { prover with records := prover.records ++ [fields] }

def define (name : String) (opening : Opening) : Proving Element Unit :=
  modify fun prover => { prover with bindings := prover.bindings.insert name opening }

def opening (name : String) : Proving Element Opening := do
  ofExcept ((← get).bindings.find name)

def draw (task : ProverTask Element) : Proving Element Scalar := do
  let position := (← get).drawn
  modify fun prover => { prover with drawn := position + task.key.field.wideWidth }
  return task.tape.scalar position task.key.field

/-- Draws the scalars of a proof of a square. -/
def drawNonces (task : ProverTask Element) : Proving Element SquareNonces := do
  let blinding ← draw task
  let secretNonce ← draw task
  let sourceNonce ← draw task
  let squareNonce ← draw task
  return { blinding, secretNonce, sourceNonce, squareNonce }

/-- Makes something out of the history and keeps the history that results. -/
def converse {α : Type} (f : ChallengeHistory → α × ChallengeHistory) : Proving Element α := do
  let (a, history) := f (← get).history
  modify fun prover => { prover with history := history }
  return a

/-- Commits to a secret under a fresh blinding, publishes the commitment and binds the name. -/
def publish (task : ProverTask Element) (name : String) (secret : Scalar) :
    Proving Element Unit := do
  let opening : Opening := { secret, blinding := ← draw task }
  let commitment := opening.commitment task.key
  converse fun history => ((), history.message "commitment" (task.key.group.encode commitment))
  write [task.key.group.toHex commitment]
  emit .debug "commit" [("name", name)]
  define name opening

/-- Claims that a name hides a value. -/
def claimEqual (task : ProverTask Element) (name : String) (value : Int) :
    Proving Element Unit := do
  let opening ← opening name
  let claimed := task.key.field.ofInt value
  let shown := Text.signedDecimal value
  if opening.secret ≠ claimed then
    emit .warn "claimed value does not match the committed secret"
      [("name", name), ("claimed", shown)]
  let nonce ← draw task
  let proof ← converse fun history =>
    ValueProof.prove task.key history (opening.commitment task.key) claimed opening.blinding nonce
  write (proof.toFields task.key)
  emit .debug "equal" [("name", name), ("value", shown)]

/-- Binds a name to the square of another and proves the relation. -/
def claimSquare (task : ProverTask Element) (name source : String) : Proving Element Unit := do
  let opening ← opening source
  let nonces ← drawNonces task
  let squared ← converse fun history =>
    SquareProof.prove task.key history (opening.commitment task.key) opening.secret
      opening.blinding nonces
  write [task.key.group.toHex squared.commitment]
  write (squared.proof.toFields task.key)
  emit .debug "square" [("name", name), ("source", source)]
  define name { secret := squared.secret, blinding := squared.blinding }

/-- Claims that two names hide the same secret. -/
def claimSame (task : ProverTask Element) (left right : String) : Proving Element Unit := do
  let first ← opening left
  let second ← opening right
  if first.secret ≠ second.secret then
    emit .warn "commitments hide different secrets" [("left", left), ("right", right)]
  let proof ← converse fun history =>
    SameProof.prove task.key history (first.commitment task.key) (second.commitment task.key)
      first.blinding second.blinding
  write (proof.toFields task.key)
  emit .debug "same" [("left", left), ("right", right)]

/-- Tells every binding. -/
def showBindings : Proving Element Unit := do
  (← get).bindings.entries.forM fun (name, opening) =>
    emit .info "binding" [("name", name), ("secret", Text.decimal opening.secret.value)]

def execute (task : ProverTask Element) (command : Command) : Proving Element Unit := do
  modify fun prover => { prover with executed := prover.executed + 1 }
  match command with
  | .input name =>
      match task.inputs.get? name with
      | some value => publish task name (task.key.field.ofInt value)
      | none => throw (.missingInput name)
  | .commit name expression =>
      let secret ← ofExcept (evaluate task.key.field (← get).bindings expression)
      publish task name secret
  | .sum name terms =>
      let opening ← ofExcept (combineOpenings task.key.field (← get).bindings terms)
      emit .debug "sum" [("name", name), ("terms", Text.decimal terms.length)]
      define name opening
  | .equal name value => claimEqual task name value
  | .square name source => claimSquare task name source
  | .same left right => claimSame task left right
  | .log => showBindings

/-- Runs the commands of a script in order, up to the first fault. -/
def run (task : ProverTask Element) (script : Script) : Proving Element Unit := do
  script.commands.forM (execute task)
  let prover ← get
  emit .info "proof transcript complete"
    [("statements", Text.decimal prover.executed),
     ("records", Text.decimal prover.records.length)]

end Prover

/-- Runs a script from the start and gives the receipt. -/
def ProverTask.prove (task : ProverTask Element) (script : Script) : Except RunError Receipt :=
  match Prover.run task script (.start task.key) with
  | .ok _ prover => .ok { records := prover.records }
  | .error fault _ => .error fault

end CommitScript

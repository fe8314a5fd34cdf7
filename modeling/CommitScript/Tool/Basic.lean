import CommitScript.Run.Prover
import CommitScript.Run.Settings
import CommitScript.Run.Verifier
import CommitScript.Tool.File

/-! # The two tools

One tool proves a script over inputs and gives a receipt, the other verifies a receipt
against a script and gives a report. Both read their files in a fixed order, settings first,
and stop at the first fault.
-/

namespace CommitScript

/-- Why a tool stops. -/
inductive ToolError where
  /-- A file cannot be read or written. -/
  | file (path : String) (fault : FileFault)
  /-- The script cannot be read. -/
  | script (fault : ScriptError)
  /-- A named group does not exist. -/
  | algebra (fault : AlgebraError)
  /-- The settings, inputs or receipt cannot be read, or the run ends early. -/
  | run (fault : RunError)
  deriving Repr, DecidableEq

/-- The wording of a tool's fault. -/
def ToolError.message : ToolError → String
  | file path fault => s!"IO error on {path}: {fault.message}"
  | script fault => fault.message
  | algebra fault => fault.message
  | run fault => fault.message

/-- What both tools are told about the system. -/
structure SystemOptions where
  /-- Takes the place of the group in the settings. -/
  group : Option GroupKind := none
  /-- The file of the settings; without one the defaults hold. -/
  settings : Option String := none
  verbose : Bool := false
  deriving Repr, DecidableEq

/-- What the proving tool is told. -/
structure ProveRequest where
  script : String
  inputs : String
  /-- Where the receipt goes; without a place it is printed. -/
  receipt : Option String := none
  system : SystemOptions := {}
  deriving Repr, DecidableEq

/-- What the verifying tool is told. -/
structure VerifyRequest where
  script : String
  receipt : String
  system : SystemOptions := {}
  deriving Repr, DecidableEq

namespace Tool

def readText (files : Files) (path : String) : Except ToolError String :=
  (files.text path).mapError (.file path)

/-- The least level of the events that are shown. -/
def level (options : SystemOptions) : EventLevel :=
  if options.verbose then .debug else .warn

/-- The settings of a system: those of the file, with the group that was asked for. -/
def readSettings (files : Files) (options : SystemOptions) : Except ToolError Settings := do
  let settings : Settings ← match options.settings with
    | some path => (Settings.read (← readText files path)).mapError .run
    | none => pure {}
  return { settings with group := options.group.getD settings.group }

def readScript (files : Files) (path : String) : Except ToolError Script := do
  (Script.read (← readText files path)).mapError .script

def readInputs (files : Files) (path : String) : Except ToolError Inputs := do
  (Inputs.read (← readText files path)).mapError .run

def readReceipt (files : Files) (path : String) : Except ToolError Receipt := do
  (Receipt.read (← readText files path)).mapError .run

end Tool

/-- How many random scalars a command takes. -/
def Command.drawCount : Command → Nat
  | input _ => 1
  | commit _ _ => 1
  | sum _ _ => 0
  | equal _ _ => 1
  | square _ _ => 4
  | same _ _ => 0
  | log => 0

/-- What a tool gives in the end, with the events on the way. -/
structure ToolRun (Result : Type) where
  events : List Event
  result : Except ToolError Result

/-- Everything that a proof needs but randomness. -/
structure ProofPlan where
  settings : Settings
  script : Script
  inputs : Inputs

namespace ProofPlan

/-- Reads what a request names. -/
def read (files : Files) (request : ProveRequest) : Except ToolError ProofPlan := do
  let settings ← Tool.readSettings files request.system
  let script ← Tool.readScript files request.script
  let inputs ← Tool.readInputs files request.inputs
  return { settings, script, inputs }

/-- How many random bytes the script takes in a group of this order. -/
def tapeLengthIn (plan : ProofPlan) (order : Nat) : Nat :=
  let scalars := plan.script.commands.foldl (fun count command => count + command.drawCount) 0
  scalars * (Bytes.widthOf order + 16)

def proveIn {Element : Type} [DecidableEq Element] (plan : ProofPlan) (group : GroupOps Element)
    (tape : Tape) : ToolRun Receipt :=
  match CommitmentKey.create group plan.settings.labelBytes with
  | .error fault => { events := [], result := .error (.run (.algebra fault)) }
  | .ok key =>
      match Prover.run { key, inputs := plan.inputs, tape } plan.script (.start key) with
      | .ok _ prover => { events := prover.events, result := .ok { records := prover.records } }
      | .error fault prover => { events := prover.events, result := .error (.run fault) }

/-- How many random bytes the script takes. -/
def tapeLength (plan : ProofPlan) : Nat :=
  match plan.settings.group with
  | .ristretto => plan.tapeLengthIn Ristretto.ops.order
  | .residue => plan.tapeLengthIn ResidueGroup.standard2048.ops.order

/-- Runs the script in the group of the settings. -/
def prove (plan : ProofPlan) (tape : Tape) : ToolRun Receipt :=
  match plan.settings.group with
  | .ristretto => plan.proveIn Ristretto.ops tape
  | .residue => plan.proveIn ResidueGroup.standard2048.ops tape

end ProofPlan

/-- Everything that the check of a receipt needs. -/
structure CheckPlan where
  settings : Settings
  script : Script
  receipt : Receipt

namespace CheckPlan

/-- Reads what a request names. -/
def read (files : Files) (request : VerifyRequest) : Except ToolError CheckPlan := do
  let settings ← Tool.readSettings files request.system
  let script ← Tool.readScript files request.script
  let receipt ← Tool.readReceipt files request.receipt
  return { settings, script, receipt }

def verifyIn {Element : Type} [DecidableEq Element] (plan : CheckPlan)
    (group : GroupOps Element) : ToolRun Report :=
  match CommitmentKey.create group plan.settings.labelBytes with
  | .error fault => { events := [], result := .error (.run (.algebra fault)) }
  | .ok key =>
      match Verifier.replay key plan.script (.start key plan.receipt) with
      | .ok report verifier => { events := verifier.events, result := .ok report }
      | .error fault verifier => { events := verifier.events, result := .error (.run fault) }

/-- Checks the receipt in the group of the settings. -/
def verify (plan : CheckPlan) : ToolRun Report :=
  match plan.settings.group with
  | .ristretto => plan.verifyIn Ristretto.ops
  | .residue => plan.verifyIn ResidueGroup.standard2048.ops

end CheckPlan

end CommitScript

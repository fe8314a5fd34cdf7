import CommitScript.Tool.Basic

/-! # Arguments

The command line of the two tools. The first argument names the tool; each further one is an
option in its short or long form, followed by its value if it has one.
-/

namespace CommitScript

/-- What a command line asks for. -/
inductive ToolRequest where
  | prove (request : ProveRequest)
  | verify (request : VerifyRequest)
  deriving Repr, DecidableEq

/-- Why a command line is refused. -/
inductive ArgumentError where
  | noTool
  | unknownTool (name : String)
  | unknownOption (name : String)
  | noValue (name : String)
  | missing (name : String)
  | group (fault : AlgebraError)
  deriving Repr, DecidableEq

def ArgumentError.message : ArgumentError → String
  | noTool => "expected a tool: prove or verify"
  | unknownTool name => s!"unknown tool '{name}'"
  | unknownOption name => s!"unknown option '{name}'"
  | noValue name => s!"option '{name}' needs a value"
  | missing name => s!"option '{name}' is required"
  | group fault => fault.message

/-- The options of a command line, as far as they have been read. -/
structure ToolOptions where
  script : Option String := none
  inputs : Option String := none
  receipt : Option String := none
  system : SystemOptions := {}
  deriving Repr, DecidableEq

namespace ToolOptions

/-- Reads options into those that were read before; a later one takes the place of an earlier
    one. -/
def read (options : ToolOptions) : List String → Except ArgumentError ToolOptions
  | [] => .ok options
  | name :: rest =>
      if name ∈ ["-v", "--verbose"] then
        read { options with system := { options.system with verbose := true } } rest
      else
        match rest with
        | [] =>
            if name ∈ ["-s", "--script", "-i", "--inputs", "-r", "--receipt", "-c", "--config",
              "-g", "--group"] then .error (.noValue name) else .error (.unknownOption name)
        | value :: rest =>
            if name ∈ ["-s", "--script"] then read { options with script := some value } rest
            else if name ∈ ["-i", "--inputs"] then read { options with inputs := some value } rest
            else if name ∈ ["-r", "--receipt"] then read { options with receipt := some value } rest
            else if name ∈ ["-c", "--config"] then
              read { options with system := { options.system with settings := some value } } rest
            else if name ∈ ["-g", "--group"] then
              match GroupKind.read value with
              | .ok kind =>
                  read { options with system := { options.system with group := some kind } } rest
              | .error fault => .error (.group fault)
            else .error (.unknownOption name)

/-- The value of an option that has to be there. -/
def required (name : String) : Option String → Except ArgumentError String
  | some value => .ok value
  | none => .error (.missing name)

end ToolOptions

def ToolRequest.read : List String → Except ArgumentError ToolRequest
  | [] => .error .noTool
  | "prove" :: rest => do
      let options ← ToolOptions.read {} rest
      let script ← ToolOptions.required "--script" options.script
      let inputs ← ToolOptions.required "--inputs" options.inputs
      return prove { script, inputs, receipt := options.receipt, system := options.system }
  | "verify" :: rest => do
      let options ← ToolOptions.read {} rest
      let script ← ToolOptions.required "--script" options.script
      let receipt ← ToolOptions.required "--receipt" options.receipt
      return verify { script, receipt, system := options.system }
  | name :: _ => .error (.unknownTool name)

/-- The files that a request asks to be read. -/
def ToolRequest.paths : ToolRequest → List String
  | prove request => request.system.settings.toList ++ [request.script, request.inputs]
  | verify request => request.system.settings.toList ++ [request.script, request.receipt]

/-- The options for the system in a request. -/
def ToolRequest.system : ToolRequest → SystemOptions
  | prove request => request.system
  | verify request => request.system

end CommitScript

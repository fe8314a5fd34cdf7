import CommitScript.Tool.Arguments

/-! # The program

Reads the files that the command line names, runs the tool on their contents, and prints or
writes what it gives. A claim that fails its check makes the exit code one, as does a fault.
-/

open CommitScript

/-- The fault of a file system call in the words of the system. -/
def fileFault (fault : IO.Error) : FileFault :=
  match fault with
  | .noFileOrDirectory _ _ _ => .missing
  | .inappropriateType _ code _ => if code = 21 then .isDirectory else .notDirectory
  | .invalidArgument _ 36 _ => .tooLong
  | fault => .other (toString fault)

/-- The contents of files at the time of the call. -/
def readFiles (paths : List String) : IO Files := do
  let contents ← paths.mapM fun (path : String) => do
    match ← (IO.FS.readBinFile path).toBaseIO with
    | .ok bytes => return (path, Except.ok bytes)
    | .error fault => return (path, Except.error (fileFault fault))
  return fun path => (contents.lookup path).getD (.error .missing)

/-- Prints the events that matter enough and gives the result of a run. -/
def showRun {Result : Type} (options : SystemOptions) (run : ToolRun Result) :
    IO (Except ToolError Result) := do
  for event in run.events do
    if event.reaches (Tool.level options) then
      IO.eprintln event.line
  return run.result

def fail (message : String) : IO UInt32 := do
  IO.eprintln ("error: " ++ message)
  return 1

/-- Proves a script and hands the receipt over. -/
def runProve (files : Files) (request : ProveRequest) : IO UInt32 := do
  match ProofPlan.read files request with
  | .error fault => fail fault.message
  | .ok plan =>
      let bytes ← IO.getRandomBytes plan.tapeLength.toUSize
      match ← showRun request.system (plan.prove (Tape.cyclic bytes.data)) with
      | .error fault => fail fault.message
      | .ok receipt =>
          match request.receipt with
          | none => IO.print receipt.write
          | some path =>
              match ← (IO.FS.writeFile path receipt.write).toBaseIO with
              | .ok _ => pure ()
              | .error fault => return ← fail (ToolError.file path (fileFault fault)).message
          return 0

def runVerify (files : Files) (request : VerifyRequest) : IO UInt32 := do
  match CheckPlan.read files request with
  | .error fault => fail fault.message
  | .ok plan =>
      match ← showRun request.system plan.verify with
      | .error fault => fail fault.message
      | .ok report =>
          IO.println report.write
          return if report.allPassed then 0 else 1

def main (arguments : List String) : IO UInt32 := do
  match ToolRequest.read arguments with
  | .error fault => fail fault.message
  | .ok request =>
      let files ← readFiles request.paths
      match request with
      | .prove request => runProve files request
      | .verify request => runVerify files request

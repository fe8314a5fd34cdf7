import CommitScript.Script.Command

/-! # Scripts

A script is a list of commands in the order of their execution. Its text holds one record
per command; writing puts each on a line of its own.
-/

namespace CommitScript

/-- The commands of a script, in order. -/
structure Script where
  commands : List Command
  deriving Repr, DecidableEq

namespace Script

/-- Decodes the records from a place in a text to its end, up to the first fault. -/
def readCommands (cursor : RecordCursor) : Except ScriptError (List Command) :=
  match _step : cursor.next with
  | (none, _) => .ok []
  | (some (.error fault), _) => .error fault
  | (some (.ok record), after) => do
      let command ← Command.ofRecord record
      let commands ← readCommands after
      return command :: commands
termination_by cursor.rest.length
decreasing_by exact RecordCursor.next_rest_length _step

/-- Reads a script. The first fault in the text, whether of a record or of a command, ends
    the reading. -/
def read (text : String) : Except ScriptError Script :=
  (readCommands (.ofString text)).map Script.mk

def write (script : Script) : String :=
  String.join (script.commands.map fun command => command.write ++ "\n")

end Script

end CommitScript

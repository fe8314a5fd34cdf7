import CommitScript.Json.Reader
import CommitScript.Run.Table
import CommitScript.Text.Blank

/-! # Inputs

The integers that a script may ask for by name. They are written as a JSON object whose
values are integers of 64 bits or strings that hold an integer of any size.
-/

namespace CommitScript

/-- The inputs of a run, by name. -/
abbrev Inputs := Table Int

namespace Inputs

/-- An input as it stands in the text. -/
inductive Written where
  | integer (value : Int)
  | text (value : String)
  deriving Repr, DecidableEq

/-- What a JSON value says about an input. -/
def Written.ofJson? (value : JsonValue) : Option Written :=
  match value.integer64?, value.string? with
  | some n, _ => some (integer n)
  | none, some s => some (text s)
  | none, none => none

/-- The integer of an input; the fault repeats its text as it was written. -/
def Written.value (name : String) : Written → Except RunError Int
  | integer n => .ok n
  | text s =>
      match Text.integer? (Text.trim s.toList) with
      | some n => .ok n
      | none => .error (.invalidInput name s)

/-- The named inputs of a JSON text. -/
def written? (text : String) : Option (List (String × Written)) := do
  match ← JsonValue.read? text with
  | .object members =>
      members.mapM fun (name, value) => do
        return (← JsonUnit.string? name, ← Written.ofJson? value)
  | _ => none

/-- Reads inputs. Every value has to be an integer or a string before any string is read; the
    last member of a name counts; strings are then read in the order of the names. -/
def read (text : String) : Except RunError Inputs :=
  match written? text with
  | none => .error .json
  | some members => do
      let values ← (Table.ofList members).entries.mapM fun (name, input) => do
        return (name, ← input.value name)
      return Table.ofList values

end Inputs

end CommitScript

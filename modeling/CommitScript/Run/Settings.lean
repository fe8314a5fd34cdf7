import CommitScript.Commitment.Key
import CommitScript.Group.Kind
import CommitScript.Json.Reader
import CommitScript.Json.Writer
import CommitScript.Run.Error

/-! # Settings

Which group a system works in and which label names its second generator. They are written as
a JSON object or as an array of the two values in order; what is left out has its default,
and members of other names are skipped.
-/

namespace CommitScript

structure Settings where
  group : GroupKind := .ristretto
  label : String := CommitmentKey.defaultLabel
  deriving Repr, DecidableEq

namespace Settings

/-- The name of the member that holds the group. -/
def groupMember : String := "group"

/-- The name of the member that holds the label. -/
def labelMember : String := "generator_label"

/-- The group that a JSON value names, as a string or as the one name of an object whose
    value is null. -/
def groupOfJson? : JsonValue → Option GroupKind
  | .object [(name, .null)] => (JsonUnit.string? name).bind GroupKind.ofName?
  | value => value.string?.bind GroupKind.ofName?

/-- The values of the members of a name. -/
def valuesOf (name : String) (members : List (String × JsonValue)) : List JsonValue :=
  (members.filter fun member => member.1 == name).map Prod.snd

/-- What at most one value says, or a default if there is none. -/
def single? {α : Type} (default : α) (read : JsonValue → Option α) : List JsonValue → Option α
  | [] => some default
  | [value] => read value
  | _ => none

def ofJson? : JsonValue → Option Settings
  | .object members => do
      let members ← members.mapM fun (name, value) => do return (← JsonUnit.string? name, value)
      let standard : Settings := {}
      let group ← single? standard.group groupOfJson? (valuesOf groupMember members)
      let label ← single? standard.label JsonValue.string? (valuesOf labelMember members)
      return { group, label }
  | .array [] => some {}
  | .array [group] => do return { group := ← groupOfJson? group }
  | .array [group, label] => do return { group := ← groupOfJson? group, label := ← label.string? }
  | _ => none

def read (text : String) : Except RunError Settings :=
  match (JsonValue.read? text).bind ofJson? with
  | some settings => .ok settings
  | none => .error .json

def write (settings : Settings) : String :=
  JsonText.objectOfStrings [(groupMember, settings.group.name), (labelMember, settings.label)]

/-- The bytes that name the second generator. -/
def labelBytes (settings : Settings) : Bytes :=
  Bytes.ofString settings.label

end Settings

end CommitScript

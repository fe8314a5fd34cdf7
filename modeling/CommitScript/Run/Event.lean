/-! # Events

What a run tells about itself while it goes on, for those who want to watch. Events decide
nothing.
-/

namespace CommitScript

/-- How much an event matters. -/
inductive EventLevel where
  | debug
  | info
  | warn
  deriving Repr, DecidableEq

def EventLevel.name : EventLevel → String
  | debug => "DEBUG"
  | info => "INFO"
  | warn => "WARN"

/-- The place of a level, the weightier the higher. -/
def EventLevel.rank : EventLevel → Nat
  | debug => 0
  | info => 1
  | warn => 2

/-- Something that happened, with the values that go with it. -/
structure Event where
  level : EventLevel
  message : String
  fields : List (String × String)
  deriving Repr, DecidableEq

/-- Whether an event matters at least as much as a level. -/
def Event.reaches (event : Event) (least : EventLevel) : Bool :=
  least.rank ≤ event.level.rank

/-- An event on one line, with its values behind the message. -/
def Event.line (event : Event) : String :=
  let fields := event.fields.map fun (name, value) => " " ++ name ++ "=" ++ value
  event.level.name ++ " " ++ event.message ++ String.join fields

end CommitScript

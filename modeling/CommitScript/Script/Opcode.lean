/-! # Opcodes

The seven commands of a script, by the name that opens their record.
-/

namespace CommitScript

/-- What a command does; one per kind of record in a script. -/
inductive Opcode where
  | input
  | commit
  | sum
  | equal
  | square
  | same
  | log
  deriving Repr, DecidableEq

namespace Opcode

/-- Every opcode, in the order of the language's description. -/
def all : List Opcode :=
  [.input, .commit, .sum, .equal, .square, .same, .log]

/-- The name that stands first in a record. -/
def name : Opcode → String
  | input => "input"
  | commit => "commit"
  | sum => "sum"
  | equal => "equal"
  | square => "square"
  | same => "same"
  | log => "log"

/-- The opcode of a name. Names are compared exactly, case included. -/
def ofName? (name : String) : Option Opcode :=
  all.find? fun opcode => opcode.name == name

theorem ofName?_name (opcode : Opcode) : ofName? opcode.name = some opcode := by
  cases opcode <;> decide

end Opcode

end CommitScript

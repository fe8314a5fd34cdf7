import CommitScript.Algebra.Scalar

/-! # Random tapes

Randomness as an endless tape of bytes. Whoever draws keeps the position, so no byte is used
twice.
-/

namespace CommitScript

/-- The random byte at each position. -/
abbrev Tape := Nat → UInt8

namespace Tape

/-- The tape that repeats some bytes for ever; without any it holds zeros. -/
def cyclic (bytes : Array UInt8) : Tape := fun position =>
  bytes.getD (position % bytes.size) 0

/-- A run of bytes of the tape. -/
def read (tape : Tape) (position count : Nat) : Bytes :=
  (List.range count).map fun i => tape (position + i)

/-- The scalar at a position, which takes a field's wide width of bytes. -/
def scalar (tape : Tape) (position : Nat) (field : ScalarField) : Scalar :=
  field.ofWideBytes (tape.read position field.wideWidth)

end Tape

end CommitScript

import CommitScript.Bytes.Basic
import CommitScript.Sponge.Keccak

/-! # SHAKE256

An endless stream of bytes that depends on every byte of a message.
-/

namespace CommitScript

/-- A place in the stream of a message. -/
structure Shake where
  state : Keccak.State
  /-- Bytes used of the current block. -/
  position : Nat

namespace Shake

/-- Bytes between two permutations. -/
def rate : Nat := 136

/-- Goes on to the next block once the current one is used up. -/
def advance (shake : Shake) : Shake :=
  if shake.position + 1 = rate then
    { state := Keccak.permute shake.state, position := 0 }
  else
    { shake with position := shake.position + 1 }

/-- Takes a byte of the message in. -/
def absorbByte (shake : Shake) (byte : UInt8) : Shake :=
  advance { shake with state := Keccak.xorByte shake.state shake.position byte }

/-- The start of the stream of a message. -/
def ofMessage (message : Bytes) : Shake :=
  let absorbed := message.foldl absorbByte { state := Keccak.zero, position := 0 }
  let ended := Keccak.xorByte absorbed.state absorbed.position 0x1F
  let padded := Keccak.xorByte ended (rate - 1) 0x80
  { state := Keccak.permute padded, position := 0 }

/-- The next bytes of the stream, and the place after them. -/
def read : Nat → Shake → Bytes × Shake
  | 0, shake => ([], shake)
  | count + 1, shake =>
      let byte := Keccak.byteAt shake.state shake.position
      let (bytes, after) := read count shake.advance
      (byte :: bytes, after)

end Shake

end CommitScript

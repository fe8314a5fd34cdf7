import CommitScript.Bytes.Basic
import CommitScript.Sponge.Keccak

/-! # The duplex behind challenges

STROBE with a security level of 128 bits, as far as a history of messages and challenges
needs it: labelled messages go in, labelled challenge bytes come out, and each operation is
framed so that no two histories enter the same bytes.
-/

namespace CommitScript

/-- A duplex between two operations. -/
structure Strobe where
  state : Keccak.State
  /-- Bytes used of the current block. -/
  position : Nat
  /-- Where the current operation began in the block, counted from one; zero for an earlier
      block. -/
  start : Nat

namespace Strobe

/-- Bytes between two permutations. -/
def rate : Nat := 166

/-- Closes a block and permutes the state. -/
def closeBlock (strobe : Strobe) : Strobe :=
  let s := Keccak.xorByte strobe.state strobe.position (UInt8.ofNat strobe.start)
  let s := Keccak.xorByte s (strobe.position + 1) 0x04
  let s := Keccak.xorByte s (rate + 1) 0x80
  { state := Keccak.permute s, position := 0, start := 0 }

/-- Moves past a byte, closing a block that is full. -/
def advance (strobe : Strobe) : Strobe :=
  if strobe.position + 1 = rate then
    { strobe with position := rate }.closeBlock
  else
    { strobe with position := strobe.position + 1 }

def absorbByte (strobe : Strobe) (byte : UInt8) : Strobe :=
  { strobe with state := Keccak.xorByte strobe.state strobe.position byte }.advance

def absorb (strobe : Strobe) (bytes : Bytes) : Strobe :=
  bytes.foldl absorbByte strobe

/-- Gives bytes out and clears them from the state. -/
def squeeze : Nat → Strobe → Bytes × Strobe
  | 0, strobe => ([], strobe)
  | count + 1, strobe =>
      let byte := Keccak.byteAt strobe.state strobe.position
      let cleared := { strobe with state := Keccak.xorByte strobe.state strobe.position byte }
      let (bytes, after) := squeeze count cleared.advance
      (byte :: bytes, after)

/-- Opens an operation: where the one before it began, and its flags. -/
def openOperation (strobe : Strobe) (flags : UInt8) : Strobe :=
  { strobe with start := strobe.position + 1 }.absorb [UInt8.ofNat strobe.start, flags]

/-- Takes in data that frames the protocol. -/
def frame (strobe : Strobe) (bytes : Bytes) : Strobe :=
  (strobe.openOperation 0x12).absorb bytes

/-- Takes in a label and the length of what it names, as one framing operation. -/
def frameLabel (strobe : Strobe) (label : Bytes) (length : Nat) : Strobe :=
  (strobe.frame label).absorb (Bytes.ofNatLittle 4 length)

def message (strobe : Strobe) (label bytes : Bytes) : Strobe :=
  ((strobe.frameLabel label bytes.length).openOperation 0x02).absorb bytes

/-- Gives out labelled challenge bytes. An open block is closed first. -/
def challenge (strobe : Strobe) (label : Bytes) (length : Nat) : Bytes × Strobe :=
  let opened := (strobe.frameLabel label length).openOperation 0x07
  squeeze length (if opened.position = 0 then opened else opened.closeBlock)

/-- The duplex of a protocol version, before any message. -/
def start128 (protocol : Bytes) : Strobe :=
  let header : Bytes := [1, 168, 1, 0, 1, 96] ++ Bytes.ofString "STROBEv1.0.2"
  let state := header.zipIdx.foldl (fun s (byte, position) => Keccak.xorByte s position byte)
    Keccak.zero
  frame { state := Keccak.permute state, position := 0, start := 0 } protocol

end Strobe

end CommitScript

import CommitScript.Challenge.History
import CommitScript.Proofs.PackedKeccak

/-! # Challenges from packed states

The duplex with its state packed, one operation after the other. It gives the bytes that the duplex
gives, so the challenge of a given history is found in a proof by computing with numbers.
-/

namespace CommitScript

namespace Packed

/-- A duplex between two operations, its state packed. -/
structure Duplex where
  state : Nat
  position : Nat
  start : Nat

/-- What the duplex is when its state is packed. -/
def packDuplex (strobe : Strobe) : Duplex :=
  ⟨pack strobe.state, strobe.position, strobe.start⟩

namespace Duplex

variable (strobe : Strobe)

def closeBlock (duplex : Duplex) : Duplex :=
  let n := xorByte duplex.state duplex.position (UInt8.ofNat duplex.start)
  let n := xorByte n (duplex.position + 1) 0x04
  let n := xorByte n (Strobe.rate + 1) 0x80
  { state := permute n, position := 0, start := 0 }

theorem closeBlock_pack : (packDuplex strobe).closeBlock = packDuplex strobe.closeBlock := by
  simp only [closeBlock, Strobe.closeBlock, packDuplex, xorByte_pack, permute_pack]

def advance (duplex : Duplex) : Duplex :=
  if duplex.position + 1 = Strobe.rate then
    { duplex with position := Strobe.rate }.closeBlock
  else
    { duplex with position := duplex.position + 1 }

theorem advance_pack : (packDuplex strobe).advance = packDuplex strobe.advance := by
  rw [Strobe.advance, apply_ite packDuplex, ← closeBlock_pack]
  rfl

def absorbByte (duplex : Duplex) (byte : UInt8) : Duplex :=
  { duplex with state := xorByte duplex.state duplex.position byte }.advance

theorem absorbByte_pack (byte : UInt8) :
    (packDuplex strobe).absorbByte byte = packDuplex (strobe.absorbByte byte) := by
  rw [Strobe.absorbByte, ← advance_pack, absorbByte]
  simp only [packDuplex, xorByte_pack]

def absorb (duplex : Duplex) (bytes : Bytes) : Duplex :=
  bytes.foldl absorbByte duplex

theorem absorb_pack (bytes : Bytes) :
    (packDuplex strobe).absorb bytes = packDuplex (strobe.absorb bytes) := by
  induction bytes generalizing strobe with
  | nil => rfl
  | cons byte rest ih =>
      rw [absorb, List.foldl_cons, absorbByte_pack]
      exact ih _

/-- Gives bytes out and clears each from the state, which is to absorb it again. -/
def squeeze : Nat → Duplex → Bytes × Duplex
  | 0, duplex => ([], duplex)
  | count + 1, duplex =>
      let byte := byteAt duplex.state duplex.position
      let (bytes, after) := squeeze count (duplex.absorbByte byte)
      (byte :: bytes, after)

theorem squeeze_pack (count : Nat) :
    squeeze count (packDuplex strobe) =
      ((Strobe.squeeze count strobe).1, packDuplex (Strobe.squeeze count strobe).2) := by
  induction count generalizing strobe with
  | zero => rfl
  | succ count ih =>
      have squeezed : Strobe.squeeze (count + 1) strobe =
          let byte := Keccak.byteAt strobe.state strobe.position
          let later := Strobe.squeeze count (strobe.absorbByte byte)
          (byte :: later.1, later.2) := rfl
      have given : byteAt (packDuplex strobe).state (packDuplex strobe).position =
          Keccak.byteAt strobe.state strobe.position := byteAt_pack _ _
      rw [squeezed, squeeze, given, absorbByte_pack, ih]

def openOperation (duplex : Duplex) (flags : UInt8) : Duplex :=
  { duplex with start := duplex.position + 1 }.absorb [UInt8.ofNat duplex.start, flags]

theorem openOperation_pack (flags : UInt8) :
    (packDuplex strobe).openOperation flags = packDuplex (strobe.openOperation flags) :=
  absorb_pack { strobe with start := strobe.position + 1 } _

def frameLabel (duplex : Duplex) (label : Bytes) (length : Nat) : Duplex :=
  ((duplex.openOperation 0x12).absorb label).absorb (Bytes.ofNatLittle 4 length)

theorem frameLabel_pack (label : Bytes) (length : Nat) :
    (packDuplex strobe).frameLabel label length = packDuplex (strobe.frameLabel label length) := by
  rw [frameLabel, openOperation_pack, absorb_pack, absorb_pack]
  rfl

def message (duplex : Duplex) (label bytes : Bytes) : Duplex :=
  ((duplex.frameLabel label bytes.length).openOperation 0x02).absorb bytes

theorem message_pack (label bytes : Bytes) :
    (packDuplex strobe).message label bytes = packDuplex (strobe.message label bytes) := by
  rw [message, frameLabel_pack, openOperation_pack, absorb_pack]
  rfl

def challenge (duplex : Duplex) (label : Bytes) (length : Nat) : Bytes × Duplex :=
  let opened := (duplex.frameLabel label length).openOperation 0x07
  squeeze length (if opened.position = 0 then opened else opened.closeBlock)

theorem challenge_pack (label : Bytes) (length : Nat) :
    (packDuplex strobe).challenge label length =
      ((strobe.challenge label length).1, packDuplex (strobe.challenge label length).2) := by
  rw [challenge, frameLabel_pack, openOperation_pack, closeBlock_pack, ← apply_ite packDuplex]
  exact squeeze_pack _ length

/-- The number that packs some bytes, each at its position. -/
def place (bytes : List (UInt8 × Nat)) : Nat :=
  bytes.foldl (fun n placed => xorByte n placed.2 placed.1) 0

theorem place_eq (bytes : List (UInt8 × Nat)) :
    place bytes =
      pack (bytes.foldl (fun s placed => Keccak.xorByte s placed.2 placed.1) Keccak.zero) := by
  have zero : 0 = pack Keccak.zero := by decide
  rw [place, zero]
  induction bytes using List.reverseRecOn with
  | nil => rfl
  | append_singleton earlier placed ih =>
      rw [List.foldl_concat, List.foldl_concat, ih, xorByte_pack]

def start128 (protocol : Bytes) : Duplex :=
  let header : Bytes := [1, 168, 1, 0, 1, 96] ++ Bytes.ofString "STROBEv1.0.2"
  (openOperation ⟨permute (place header.zipIdx), 0, 0⟩ 0x12).absorb protocol

theorem start128_eq (protocol : Bytes) : start128 protocol = packDuplex (.start128 protocol) := by
  rw [Strobe.start128, Strobe.frame, ← absorb_pack, ← openOperation_pack, packDuplex,
    ← permute_pack]
  simp only [start128, place_eq]

end Duplex

/-- The packed duplex after an entry. -/
def enter (duplex : Duplex) : HistoryEntry → Duplex
  | .message label bytes => duplex.message (Bytes.ofString label) bytes
  | .challenge label length => (duplex.challenge (Bytes.ofString label) length).2

theorem enter_pack (strobe : Strobe) (entry : HistoryEntry) :
    enter (packDuplex strobe) entry = packDuplex (entry.enter strobe) := by
  cases entry with
  | message label bytes => exact Duplex.message_pack strobe _ bytes
  | challenge label length => rw [enter, Duplex.challenge_pack, HistoryEntry.enter]

/-- The packed duplex after a whole history, whose newest entry stands first. -/
def replay : List HistoryEntry → Duplex
  | [] => .start128 (Bytes.ofString "Merlin v1.0")
  | entry :: earlier => enter (replay earlier) entry

theorem replay_eq (entries : List HistoryEntry) :
    replay entries = packDuplex (replayHistory entries) := by
  induction entries with
  | nil => exact Duplex.start128_eq _
  | cons entry earlier ih => rw [replay, ih, enter_pack, replayHistory]

end Packed

/-- A challenge is the one that the packed duplex gives. -/
theorem ChallengeHistory.draw_eq (history : ChallengeHistory) (label : String)
    (field : ScalarField) :
    (history.draw label field).1 = field.ofWideBytes
      ((Packed.replay history.entries).challenge (Bytes.ofString label) field.wideWidth).1 := by
  rw [Packed.replay_eq, ← history.sponge_eq, Packed.Duplex.challenge_pack]
  rfl

end CommitScript

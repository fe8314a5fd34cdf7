import CommitScript.Proofs.PackedKeccak
import CommitScript.Proofs.SampleStreams

/-! # Streams from packed states

The stream of a message with the sponge's state packed, from the first byte that is taken in to the
last that is given out. It gives the bytes that the stream gives, so a second generator is found in
a proof by computing with numbers.
-/

namespace CommitScript

namespace Packed

/-- A place in the stream of a message, its state packed. -/
structure Place where
  state : Nat
  position : Nat

/-- What a place is when its state is packed. -/
def packShake (shake : Shake) : Place :=
  ⟨pack shake.state, shake.position⟩

namespace Place

def advance (place : Place) : Place :=
  if place.position + 1 = Shake.rate then
    { state := permute place.state, position := 0 }
  else
    { place with position := place.position + 1 }

theorem advance_pack (shake : Shake) : (packShake shake).advance = packShake shake.advance := by
  rw [Shake.advance, apply_ite packShake]
  simp only [packShake, ← permute_pack]
  rfl

def absorbByte (place : Place) (byte : UInt8) : Place :=
  advance { place with state := xorByte place.state place.position byte }

theorem absorbByte_pack (shake : Shake) (byte : UInt8) :
    (packShake shake).absorbByte byte = packShake (shake.absorbByte byte) := by
  rw [Shake.absorbByte, ← advance_pack, absorbByte]
  simp only [packShake, xorByte_pack]

end Place

def absorb (message : Bytes) : Place :=
  message.foldl Place.absorbByte ⟨0, 0⟩

theorem absorb_eq (message : Bytes) :
    absorb message =
      packShake (message.foldl Shake.absorbByte { state := Keccak.zero, position := 0 }) := by
  have zero : (⟨0, 0⟩ : Place) = packShake { state := Keccak.zero, position := 0 } := by
    have packed : 0 = pack Keccak.zero := by decide
    rw [packShake, ← packed]
  rw [absorb, zero]
  induction message using List.reverseRecOn with
  | nil => rfl
  | append_singleton earlier byte ih =>
      rw [List.foldl_concat, List.foldl_concat, ih, Place.absorbByte_pack]

/-- The state at the start of a message's stream. -/
def start (message : Bytes) : Nat :=
  let absorbed := absorb message
  permute (xorByte (xorByte absorbed.state absorbed.position 0x1F) (Shake.rate - 1) 0x80)

theorem start_eq (message : Bytes) : start message = pack (Shake.ofMessage message).state := by
  simp only [start, absorb_eq, packShake, xorByte_pack, permute_pack]
  rfl

theorem permute_iterate_pack (count : Nat) (s : Keccak.State) :
    permute^[count] (pack s) = pack (Keccak.permute^[count] s) := by
  induction count generalizing s with
  | zero => rfl
  | succ count ih =>
      rw [Function.iterate_succ_apply, Function.iterate_succ_apply, permute_pack, ih]

def output (message : Bytes) (index : Nat) : UInt8 :=
  byteAt (permute^[index / Shake.rate] (start message)) (index % Shake.rate)

/-- The stream gives the bytes that the packed state gives. -/
theorem output_eq : Shake.output = output := by
  funext message index
  rw [output, start_eq, permute_iterate_pack, byteAt_pack, Shake.output]

end Packed

end CommitScript

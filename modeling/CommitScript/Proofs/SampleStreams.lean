import Mathlib
import CommitScript.Commitment.Key

/-! # Streams of samples

The stream of a message as a function of positions, and the parts of one width that follow each
other in it. A second generator is sought among these parts from the first one on, and the place
in the stream runs along with the search.
-/

namespace CommitScript

namespace Shake

/-- The byte at an index of a message's stream: the sponge's state block after block. -/
def output (message : Bytes) (index : Nat) : UInt8 :=
  Keccak.byteAt (Keccak.permute^[index / rate] (ofMessage message).state) (index % rate)

/-- One of the parts of a width that follow each other in a message's stream. -/
def chunk (message : Bytes) (width number : Nat) : Bytes :=
  (List.range width).map fun i => output message (number * width + i)

/-- The place at an index of a message's stream. -/
def place (message : Bytes) (index : Nat) : Shake where
  state := Keccak.permute^[index / rate] (ofMessage message).state
  position := index % rate

variable (message : Bytes)

theorem place_zero : place message 0 = ofMessage message :=
  rfl

theorem advance_place (index : Nat) :
    (place message index).advance = place message (index + 1) := by
  by_cases full : (place message index).position + 1 = rate
  · have last : index % 136 + 1 = 136 := full
    have quotient : (index + 1) / rate = index / rate + 1 := by
      change (index + 1) / 136 = index / 136 + 1
      omega
    have remainder : (index + 1) % rate = 0 := by
      change (index + 1) % 136 = 0
      omega
    rw [advance, if_pos full, place, place, quotient, remainder, Function.iterate_succ_apply']
  · have room : ¬index % 136 + 1 = 136 := full
    have quotient : (index + 1) / rate = index / rate := by
      change (index + 1) / 136 = index / 136
      omega
    have remainder : (index + 1) % rate = index % rate + 1 := by
      change (index + 1) % 136 = index % 136 + 1
      omega
    rw [advance, if_neg full, place, place, quotient, remainder]

theorem read_place (count index : Nat) :
    read count (place message index) =
      ((List.range count).map fun i => output message (index + i),
        place message (index + count)) := by
  induction count generalizing index with
  | zero => rfl
  | succ count ih =>
      have shifted (i : Nat) : index + 1 + i = index + (i + 1) := by omega
      simp only [read, advance_place, ih, shifted, List.range_succ_eq_map, List.map_cons,
        List.map_map]
      rfl

/-- After a part of the stream comes the next one. -/
theorem read_chunk (width number : Nat) :
    read width (place message (number * width)) =
      (chunk message width number, place message ((number + 1) * width)) := by
  rw [read_place, Nat.succ_mul]
  rfl

end Shake

namespace GroupOps

variable {Element : Type}

/-- Whether a sample gives no second generator: it has to be drawn again, or it gives the identity
    or the first generator. -/
def Rejects (group : GroupOps Element) (bytes : Bytes) : Prop :=
  ∀ a, group.ofSample? bytes = some a → a = group.identity ∨ a = group.generator

variable [DecidableEq Element] {group : GroupOps Element}

theorem usableSample?_eq_some {bytes : Bytes} {a : Element} :
    group.usableSample? bytes = some a ↔
      group.ofSample? bytes = some a ∧ a ≠ group.identity ∧ a ≠ group.generator := by
  simp [usableSample?, Option.filter_eq_some_iff]

theorem usableSample?_eq_none {bytes : Bytes} :
    group.usableSample? bytes = none ↔ group.Rejects bytes := by
  simp only [usableSample?, Option.filter_eq_none_iff, Rejects, decide_eq_true_eq]
  grind

/-- The search for a usable sample goes along the parts of the stream. -/
theorem firstUsable?_place (message : Bytes) (samples number : Nat) :
    group.firstUsable? samples (Shake.place message (number * group.sampleWidth)) =
      (List.range' number samples).findSome? fun number =>
        group.usableSample? (Shake.chunk message group.sampleWidth number) := by
  induction samples generalizing number with
  | zero => rfl
  | succ samples ih =>
      rw [firstUsable?, Shake.read_chunk, List.range'_succ, List.findSome?_cons, ← ih]
      rfl

/-- A search along the numbers below a limit finds what the first number gives that gives
    anything. -/
theorem findSome?_eq_some {Value : Type} {f : Nat → Option Value} {limit : Nat} {value : Value} :
    (List.range' 0 limit).findSome? f = some value ↔
      ∃ number < limit, f number = some value ∧ ∀ earlier < number, f earlier = none := by
  rw [List.findSome?_eq_some_iff]
  constructor
  · rintro ⟨before, number, after, split, found, others⟩
    obtain ⟨count, -, rfl, rest⟩ := List.range'_eq_append_iff.mp split
    obtain ⟨rfl, inside, -⟩ := List.range'_eq_cons_iff.mp rest.symm
    refine ⟨_, ?_, found, fun earlier below => others earlier ?_⟩
    · omega
    · rw [List.mem_range'_1]
      omega
  · rintro ⟨number, inside, found, others⟩
    refine ⟨List.range' 0 number, number, List.range' (number + 1) (limit - number - 1), ?_, found,
      fun earlier member => others earlier ?_⟩
    · refine List.range'_eq_append_iff.mpr ⟨number, Nat.le_of_lt inside, rfl, ?_⟩
      exact (List.range'_eq_cons_iff.mpr ⟨by omega, by omega, rfl⟩).symm
    · rw [List.mem_range'_1] at member
      omega

/-- The samples for a label, one for each number: the parts of the stream of the label with the
    first generator. -/
def sample (group : GroupOps Element) (label : Bytes) : Nat → Bytes :=
  Shake.chunk (label ++ group.encode group.generator) group.sampleWidth

variable {label : Bytes}

theorem firstUsable?_ofMessage :
    group.firstUsable? sampleLimit (.ofMessage (label ++ group.encode group.generator)) =
      (List.range' 0 sampleLimit).findSome? fun number =>
        group.usableSample? (group.sample label number) := by
  rw [sample, ← firstUsable?_place, Nat.zero_mul, Shake.place_zero]

/-- The second generator is what the first sample gives that is not rejected. -/
theorem secondGenerator_eq_ok {a : Element} :
    group.secondGenerator label = .ok a ↔
      ∃ number < sampleLimit, group.ofSample? (group.sample label number) = some a ∧
        a ≠ group.identity ∧ a ≠ group.generator ∧
        ∀ earlier < number, group.Rejects (group.sample label earlier) := by
  have search : group.secondGenerator label = .ok a ↔
      group.firstUsable? sampleLimit (.ofMessage (label ++ group.encode group.generator)) =
        some a := by
    simp only [secondGenerator]
    split
    · next found => simp [found]
    · next exhausted => simp [exhausted]
  rw [search, firstUsable?_ofMessage, findSome?_eq_some]
  simp only [usableSample?_eq_some, usableSample?_eq_none, and_assoc]

/-- There is no second generator when all samples are rejected, and for no other reason. -/
theorem secondGenerator_eq_error {fault : AlgebraError} :
    group.secondGenerator label = .error fault ↔
      fault = .noGenerator sampleLimit ∧
        ∀ number < sampleLimit, group.Rejects (group.sample label number) := by
  have search : group.secondGenerator label = .error fault ↔
      fault = .noGenerator sampleLimit ∧
        group.firstUsable? sampleLimit (.ofMessage (label ++ group.encode group.generator)) =
          none := by
    simp only [secondGenerator]
    split
    · next found => simp [found]
    · next exhausted => simp [exhausted, eq_comm]
  rw [search, firstUsable?_ofMessage, List.findSome?_eq_none_iff]
  simp only [usableSample?_eq_none, List.mem_range'_1, Nat.zero_le, true_and, Nat.zero_add]

end GroupOps

end CommitScript

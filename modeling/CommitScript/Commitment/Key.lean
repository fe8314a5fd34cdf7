import CommitScript.Challenge.History
import CommitScript.Group.Basic
import CommitScript.Sponge.Shake

/-! # Commitment keys

A commitment hides a secret under a blinding as a sum of multiples of two generators. The
second generator comes from a hash of a label and the first, so nobody knows how the two are
related.
-/

namespace CommitScript

variable {Element : Type}

/-- A sample as second generator: neither the identity nor the first generator. -/
def GroupOps.usableSample? [DecidableEq Element] (group : GroupOps Element) (bytes : Bytes) :
    Option Element :=
  (group.ofSample? bytes).filter fun a => a ≠ group.identity ∧ a ≠ group.generator

/-- The first usable one of a number of samples, read from a stream one after the other. -/
def GroupOps.firstUsable? [DecidableEq Element] (group : GroupOps Element) :
    Nat → Shake → Option Element
  | 0, _ => none
  | samples + 1, stream =>
      let (bytes, after) := stream.read group.sampleWidth
      match group.usableSample? bytes with
      | some a => some a
      | none => firstUsable? group samples after

/-- How many samples are tried. -/
def sampleLimit : Nat := 256

def GroupOps.secondGenerator [DecidableEq Element] (group : GroupOps Element) (label : Bytes) :
    Except AlgebraError Element :=
  let stream := Shake.ofMessage (label ++ group.encode group.generator)
  match group.firstUsable? sampleLimit stream with
  | some a => .ok a
  | none => .error (.noGenerator sampleLimit)

/-- A group with its scalars and two generators, the second one named by a label. -/
structure CommitmentKey (Element : Type) where
  group : GroupOps Element
  field : ScalarField
  label : Bytes
  /-- The generator that blindings multiply. -/
  blindingBase : Element
  modulus_eq : field.modulus = group.order

namespace CommitmentKey

/-- The label of the second generator where none is chosen. -/
def defaultLabel : String := "PEDERSEN_H_GENERATOR"

/-- The key of a group and a label. -/
def create [DecidableEq Element] (group : GroupOps Element) (label : Bytes) :
    Except AlgebraError (CommitmentKey Element) :=
  if h : 1 < group.order then do
    let blindingBase ← group.secondGenerator label
    return { group, field := ⟨group.order, h⟩, label, blindingBase, modulus_eq := rfl }
  else
    .error (.parameters .trivialModulus)

/-- The multiple of an element by a scalar. -/
def scale (key : CommitmentKey Element) (k : Scalar) (a : Element) : Element :=
  key.group.multiple k.value a

/-- A commitment in which another element takes the place of the first generator. -/
def commitWith (key : CommitmentKey Element) (base : Element) (secret blinding : Scalar) :
    Element :=
  key.group.add (key.scale secret base) (key.scale blinding key.blindingBase)

/-- The commitment that hides a secret under a blinding. -/
def commit (key : CommitmentKey Element) (secret blinding : Scalar) : Element :=
  key.commitWith key.group.generator secret blinding

/-- The challenge history at the start of a script, bound to the group and both
    generators. -/
def history (key : CommitmentKey Element) : ChallengeHistory :=
  (ChallengeHistory.ofProtocol "pedersen-statement-script")
    |>.message "group" (Bytes.ofString key.group.name)
    |>.message "generator-label" key.label
    |>.message "G" (key.group.encode key.group.generator)
    |>.message "H" (key.group.encode key.blindingBase)

end CommitmentKey

end CommitScript

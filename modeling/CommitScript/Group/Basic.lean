import CommitScript.Algebra.Scalar

/-! # Groups

The operations that commitments and proofs ask of a group, written additively. The record
holds no laws; what a group promises is stated where it is needed.
-/

namespace CommitScript

/-- A group of prime order with a generator and one encoding for each element. -/
structure GroupOps (Element : Type) where
  /-- The name under which the group enters every challenge. -/
  name : String
  /-- The number of elements. -/
  order : Nat
  generator : Element
  identity : Element
  add : Element → Element → Element
  negate : Element → Element
  /-- Adds an element to itself as often as a natural number says. -/
  multiple : Nat → Element → Element
  encode : Element → Bytes
  /-- Refuses every byte string that is no element's encoding. -/
  decode : Bytes → Except AlgebraError Element
  /-- How many uniform bytes make a sample. -/
  sampleWidth : Nat
  /-- An element whose logarithm nobody knows, unless the bytes have to be drawn again. -/
  ofSample? : Bytes → Option Element

namespace GroupOps

variable {Element : Type}

/-- The difference of two elements. -/
def sub (group : GroupOps Element) (a b : Element) : Element :=
  group.add a (group.negate b)

def toHex (group : GroupOps Element) (a : Element) : String :=
  Hex.encode (group.encode a)

def ofHex (group : GroupOps Element) (text : String) : Except AlgebraError Element := do
  group.decode (← Encoded.element.readHex text)

end GroupOps

end CommitScript

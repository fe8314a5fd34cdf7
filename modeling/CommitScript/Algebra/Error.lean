import CommitScript.Bytes.Hex

/-! # Faults of the algebra

Why bytes are not a scalar or a group element, why parameters do not make a group, and why a
second generator could not be derived.
-/

namespace CommitScript

/-- What an encoding is meant to hold. -/
inductive Encoded where
  | scalar
  | element
  deriving Repr, DecidableEq

/-- The word for what an encoding is meant to hold. -/
def Encoded.name : Encoded → String
  | scalar => "scalar"
  | element => "element"

/-- Why an encoding is refused. -/
inductive EncodingFault where
  /-- The text is not hexadecimal. -/
  | notHex (what : Encoded) (fault : HexError)
  /-- The text has digits in uppercase. -/
  | notLowercase (what : Encoded)
  /-- A scalar has another width than its field. -/
  | scalarWidth (expected actual : Nat)
  /-- A scalar is not below the group order. -/
  | scalarRange
  /-- A residue has another width than its modulus. -/
  | residueWidth (expected actual : Nat)
  /-- A residue is zero or not below the modulus. -/
  | residueRange
  /-- A residue has no place in the subgroup. -/
  | residueOutside
  /-- A curve point is not 32 bytes long. -/
  | pointWidth (actual : Nat)
  /-- Bytes of the right length that name no curve point. -/
  | pointInvalid
  deriving Repr, DecidableEq

/-- The wording of an encoding fault. -/
def EncodingFault.message : EncodingFault → String
  | notHex what fault => s!"{what.name} hex: {fault.message}"
  | notLowercase what => s!"{what.name} hex must be lowercase"
  | scalarWidth expected actual => s!"scalar must be {expected} bytes, got {actual}"
  | scalarRange => "scalar is not reduced modulo the group order"
  | residueWidth expected actual => s!"subgroup element must be {expected} bytes, got {actual}"
  | residueRange => "residue outside [1, p)"
  | residueOutside => "residue is not in the prime-order subgroup"
  | pointWidth actual => s!"ristretto point must be 32 bytes, got {actual}"
  | pointInvalid => "Invalid compressed point"

/-- Why parameters are refused. -/
inductive ParameterFault where
  /-- A scalar field needs a modulus above one. -/
  | trivialModulus
  /-- A modulus that is small or even is no safe prime. -/
  | notSafePrime
  /-- A generator has to lie strictly between one and the modulus. -/
  | generatorRange
  /-- A generator has to lie in the subgroup. -/
  | generatorOrder
  /-- No group has this name. -/
  | unknownGroup (name : String)
  deriving Repr, DecidableEq

/-- The wording of a parameter fault. -/
def ParameterFault.message : ParameterFault → String
  | trivialModulus => "Scalar modulus must be greater than one"
  | notSafePrime => "modulus must be an odd safe prime"
  | generatorRange => "generator must lie in (1, p)"
  | generatorOrder => "generator does not have order (p-1)/2"
  | unknownGroup name => s!"unknown group backend '{name}'"

/-- Faults of scalars, groups and commitments. -/
inductive AlgebraError where
  /-- Bytes or text that encode nothing. -/
  | encoding (fault : EncodingFault)
  /-- Zero has no inverse. -/
  | notInvertible
  /-- Parameters that make no field or group. -/
  | parameters (fault : ParameterFault)
  /-- No sample gave a second generator. -/
  | noGenerator (samples : Nat)
  deriving Repr, DecidableEq

/-- The wording of a fault of the algebra. -/
def AlgebraError.message : AlgebraError → String
  | encoding fault => s!"Invalid encoding: {fault.message}"
  | notInvertible => "Scalar is not invertible"
  | parameters fault => s!"Invalid parameters: {fault.message}"
  | noGenerator samples =>
      s!"Generator derivation failed: no usable element after {samples} samples"

/-- Reads lowercase hexadecimal text. Uppercase digits are told apart from other faults. -/
def Encoded.readHex (what : Encoded) (text : String) : Except AlgebraError Bytes :=
  match Hex.decode text with
  | .error fault => .error (.encoding (.notHex what fault))
  | .ok bytes =>
      if Hex.encode bytes = text then .ok bytes else .error (.encoding (.notLowercase what))

end CommitScript

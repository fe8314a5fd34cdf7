import CommitScript.Algebra.Error
import CommitScript.Algebra.Power

/-! # Scalars

Numbers modulo the order of a group. A scalar carries no modulus; every operation belongs to
a field and keeps its results below the modulus. The modulus is meant to be prime, and only
the inverse depends on that. The main statements say that every operation gives a reduced
scalar and that only the encoding of a reduced scalar is read.
-/

namespace CommitScript

/-- A number that stands for a residue. -/
structure Scalar where
  value : Nat
  deriving Repr, DecidableEq

/-- The numbers modulo a modulus above one. -/
structure ScalarField where
  modulus : Nat
  one_lt : 1 < modulus

namespace ScalarField

/-- The field of a modulus; zero and one are no moduli. -/
def ofModulus (modulus : Nat) : Except AlgebraError ScalarField :=
  if h : 1 < modulus then .ok ⟨modulus, h⟩ else .error (.parameters .trivialModulus)

/-- Whether a scalar is the residue that stands for its class. -/
def Reduced (field : ScalarField) (a : Scalar) : Prop :=
  a.value < field.modulus

/-- How many bytes a scalar is encoded in. -/
def width (field : ScalarField) : Nat :=
  Bytes.widthOf field.modulus

/-- How many uniform bytes make a scalar whose bias is negligible. -/
def wideWidth (field : ScalarField) : Nat :=
  field.width + 16

def zero (_ : ScalarField) : Scalar := ⟨0⟩

def one (_ : ScalarField) : Scalar := ⟨1⟩

/-- The class of a natural number. -/
def reduce (field : ScalarField) (n : Nat) : Scalar :=
  ⟨n % field.modulus⟩

def add (field : ScalarField) (a b : Scalar) : Scalar :=
  ⟨(a.value + b.value) % field.modulus⟩

def sub (field : ScalarField) (a b : Scalar) : Scalar :=
  ⟨(a.value + field.modulus - b.value) % field.modulus⟩

def mul (field : ScalarField) (a b : Scalar) : Scalar :=
  ⟨a.value * b.value % field.modulus⟩

def neg (field : ScalarField) (a : Scalar) : Scalar :=
  ⟨(field.modulus - a.value) % field.modulus⟩

/-- A power with a natural number, which is not reduced, as exponent. -/
def pow (field : ScalarField) (a : Scalar) (exponent : Nat) : Scalar :=
  ⟨Modular.power field.modulus a.value exponent⟩

/-- The class of an integer. -/
def ofInt (field : ScalarField) (value : Int) : Scalar :=
  let magnitude := field.reduce value.natAbs
  if value < 0 then field.neg magnitude else magnitude

/-- The inverse of a scalar that is not zero, by Fermat's little theorem. -/
def inverse (field : ScalarField) (a : Scalar) : Except AlgebraError Scalar :=
  if a.value = 0 then .error .notInvertible else .ok (field.pow a (field.modulus - 2))

/-- The class of a big-endian number of any length. -/
def ofWideBytes (field : ScalarField) (bytes : Bytes) : Scalar :=
  field.reduce (Bytes.toNatBig bytes)

def encode (field : ScalarField) (a : Scalar) : Bytes :=
  Bytes.ofNatBig field.width a.value

/-- Reads the encoding of a reduced scalar. -/
def decode (field : ScalarField) (bytes : Bytes) : Except AlgebraError Scalar :=
  if bytes.length ≠ field.width then
    .error (.encoding (.scalarWidth field.width bytes.length))
  else if Bytes.toNatBig bytes < field.modulus then
    .ok ⟨Bytes.toNatBig bytes⟩
  else
    .error (.encoding .scalarRange)

def toHex (field : ScalarField) (a : Scalar) : String :=
  Hex.encode (field.encode a)

def ofHex (field : ScalarField) (text : String) : Except AlgebraError Scalar := do
  field.decode (← Encoded.scalar.readHex text)

variable (field : ScalarField)

theorem modulus_pos : 0 < field.modulus := Nat.lt_trans Nat.zero_lt_one field.one_lt

theorem reduced_zero : field.Reduced field.zero := field.modulus_pos

theorem reduced_one : field.Reduced field.one := field.one_lt

theorem reduced_reduce (n : Nat) : field.Reduced (field.reduce n) :=
  Nat.mod_lt _ field.modulus_pos

theorem reduced_add (a b : Scalar) : field.Reduced (field.add a b) :=
  Nat.mod_lt _ field.modulus_pos

theorem reduced_sub (a b : Scalar) : field.Reduced (field.sub a b) :=
  Nat.mod_lt _ field.modulus_pos

theorem reduced_mul (a b : Scalar) : field.Reduced (field.mul a b) :=
  Nat.mod_lt _ field.modulus_pos

theorem reduced_neg (a : Scalar) : field.Reduced (field.neg a) :=
  Nat.mod_lt _ field.modulus_pos

theorem reduced_pow (a : Scalar) (exponent : Nat) : field.Reduced (field.pow a exponent) :=
  Modular.power_lt _ _ field.modulus_pos

theorem reduced_ofInt (value : Int) : field.Reduced (field.ofInt value) := by
  unfold ofInt
  split
  · exact field.reduced_neg _
  · exact field.reduced_reduce _

theorem reduced_inverse {a inverse : Scalar} (h : field.inverse a = .ok inverse) :
    field.Reduced inverse := by
  unfold ScalarField.inverse at h
  split at h
  · cases h
  · cases h
    exact field.reduced_pow _ _

theorem width_pos : 0 < field.width :=
  Bytes.widthOf_pos field.modulus_pos

/-- Reading an encoding back gives the scalar, if it was reduced. -/
theorem decode_encode {a : Scalar} (h : field.Reduced a) :
    field.decode (field.encode a) = .ok a := by
  have value : Bytes.toNatBig (field.encode a) = a.value := Bytes.toNatBig_ofNatBig _ _
  have length : (field.encode a).length = field.width := Bytes.length_ofNatBig_of_lt h
  have range : a.value < field.modulus := h
  simp [decode, value, length, range]

/-- An encoding is read as a reduced scalar, and no other bytes encode that scalar. -/
theorem decode_eq_ok {bytes : Bytes} {a : Scalar} (h : field.decode bytes = .ok a) :
    field.Reduced a ∧ field.encode a = bytes := by
  unfold decode at h
  split at h
  · cases h
  · next hlength =>
    split at h
    · next hrange =>
      cases h
      have length : bytes.length = field.width := Decidable.not_not.mp hlength
      have some : 0 < bytes.length := length ▸ field.width_pos
      exact ⟨hrange, by rw [encode, ← length, Bytes.ofNatBig_toNatBig some]⟩
    · cases h

end ScalarField

end CommitScript

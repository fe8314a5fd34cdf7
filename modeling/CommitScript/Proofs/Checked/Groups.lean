import CommitScript.Proofs.Checked.Scalars
import CommitScript.Proofs.ResidueLaws
import CommitScript.Commitment.Key
import CommitScript.Group.Ristretto

/-! # Checked groups

The operations of both groups with every partial operation checked, and what is made of them:
keys and commitments. Nothing is asked of an element or a scalar, and nothing of the parameters
of a residue group but that they have been accepted: neither the modulus nor the order has to be
prime for that.
-/

namespace CommitScript

variable {Element : Type}

/-- The operations of a group that may panic. -/
structure CheckedOps (Element : Type) where
  add : Element → Element → Checked Element
  negate : Element → Checked Element
  multiple : Nat → Element → Checked Element
  decode : Bytes → CheckedTry AlgebraError Element
  ofSample? : Bytes → Checked (Option Element)

namespace CheckedOps

/-- Whether checked operations are those of a group and never panic. -/
structure Agrees (ops : CheckedOps Element) (group : GroupOps Element) : Prop where
  add : ∀ a b, ops.add a b = pure (group.add a b)
  negate : ∀ a, ops.negate a = pure (group.negate a)
  multiple : ∀ k a, ops.multiple k a = pure (group.multiple k a)
  decode : ∀ bytes, ops.decode bytes = CheckedTry.ofExcept (group.decode bytes)
  ofSample? : ∀ bytes, ops.ofSample? bytes = pure (group.ofSample? bytes)

/-- The difference of two elements. -/
def sub (ops : CheckedOps Element) (a b : Element) : Checked Element := do
  ops.add a (← ops.negate b)

def ofHex (ops : CheckedOps Element) (text : String) : CheckedTry AlgebraError Element := do
  let bytes ← CheckedTry.ofExcept (Encoded.element.readHex text)
  ops.decode bytes

variable {ops : CheckedOps Element} {group : GroupOps Element}

namespace Agrees

theorem sub (agrees : ops.Agrees group) (a b : Element) :
    ops.sub a b = pure (group.sub a b) := by
  rw [CheckedOps.sub, agrees.negate, pure_bind, agrees.add]
  rfl

theorem ofHex (agrees : ops.Agrees group) (text : String) :
    ops.ofHex text = CheckedTry.ofExcept (group.ofHex text) :=
  CheckedTry.ofExcept_bind fun bytes _ => agrees.decode bytes

end Agrees

end CheckedOps

namespace ResidueGroup

/-- The order that belongs to a modulus. -/
def orderChecked (modulus : Nat) : Checked Nat := do
  return (← Checked.sub modulus 1) / 2

/-- Whether a residue lies in the subgroup of an order. -/
def containsChecked (modulus order value : Nat) : Checked Bool := do
  return (← Checked.power modulus value order) == 1

theorem orderChecked_eq {modulus : Nat} (h : 0 < modulus) :
    orderChecked modulus = pure ((modulus - 1) / 2) := by
  rw [orderChecked, Checked.sub_of_le h]
  rfl

theorem containsChecked_eq {modulus : Nat} (h : 0 < modulus) (order value : Nat) :
    containsChecked modulus order value = pure (Modular.power modulus value order == 1) := by
  rw [containsChecked, Checked.power_of_pos h]
  rfl

/-- The group of a modulus and a generator. The order is taken and used only for a modulus that
    has been looked at. -/
def ofParametersChecked (modulus generator : Nat) : CheckedTry AlgebraError ResidueGroup :=
  if 3 < modulus ∧ modulus % 2 = 1 then
    if 1 < generator ∧ generator < modulus then do
      let order ← orderChecked modulus
      let inside ← containsChecked modulus order generator
      if inside then CheckedTry.ofExcept (ofParameters modulus generator)
      else throw (.parameters .generatorOrder)
    else throw (.parameters .generatorRange)
  else throw (.parameters .notSafePrime)

theorem ofParametersChecked_eq (modulus generator : Nat) :
    ofParametersChecked modulus generator =
      CheckedTry.ofExcept (ofParameters modulus generator) := by
  rw [ofParametersChecked]
  split
  · next large =>
    have pos : 0 < modulus := by omega
    split
    · next range =>
      rw [orderChecked_eq pos, CheckedTry.lift_pure, pure_bind, containsChecked_eq pos,
        CheckedTry.lift_pure, pure_bind]
      split
      · rfl
      · next outside =>
        rw [ofParameters, dif_pos large, dif_pos range, dif_neg (by simpa using outside)]
        rfl
    · next range =>
      rw [ofParameters, dif_pos large, dif_neg range]
      rfl
  · next small =>
    rw [ofParameters, dif_neg small]
    rfl

section Operations

variable (group : ResidueGroup)

def powerChecked (a : Residue) (exponent : Nat) : Checked Residue := do
  return ⟨← Checked.power group.modulus a.value exponent⟩

def addChecked (a b : Residue) : Checked Residue := do
  return ⟨← Checked.mod (a.value * b.value) group.modulus⟩

def negateChecked (a : Residue) : Checked Residue := do
  group.powerChecked a (← Checked.sub group.modulus 2)

def multipleChecked (k : Nat) (a : Residue) : Checked Residue := do
  group.powerChecked a (← Checked.mod k group.order)

def decodeChecked (bytes : Bytes) : CheckedTry AlgebraError Residue :=
  let value := Bytes.toNatBig bytes
  if bytes.length ≠ group.width then
    throw (.encoding (.residueWidth group.width bytes.length))
  else if value = 0 ∨ group.modulus ≤ value then
    throw (.encoding .residueRange)
  else do
    let inside ← containsChecked group.modulus group.order value
    if inside then return ⟨value⟩ else throw (.encoding .residueOutside)

/-- Squares a sample. -/
def ofSampleChecked? (bytes : Bytes) : Checked (Option Residue) :=
  let value := Bytes.toNatBig bytes
  if value ≤ 1 ∨ group.modulus ≤ value then return none
  else do
    let square ← Checked.power group.modulus value 2
    return if square = 1 then none else some ⟨square⟩

theorem powerChecked_eq (a : Residue) (exponent : Nat) :
    group.powerChecked a exponent = pure (group.power a exponent) := by
  rw [powerChecked, Checked.power_of_pos group.modulus_pos]
  rfl

theorem addChecked_eq (a b : Residue) : group.addChecked a b = pure (group.ops.add a b) := by
  rw [addChecked, Checked.mod_of_pos group.modulus_pos]
  rfl

theorem negateChecked_eq (a : Residue) : group.negateChecked a = pure (group.ops.negate a) := by
  have two : 2 ≤ group.modulus := Nat.le_of_lt (Nat.lt_of_succ_lt group.modulus_large)
  rw [negateChecked, Checked.sub_of_le two, pure_bind, powerChecked_eq]
  rfl

theorem multipleChecked_eq (k : Nat) (a : Residue) :
    group.multipleChecked k a = pure (group.ops.multiple k a) := by
  rw [multipleChecked, Checked.mod_of_pos group.order_pos, pure_bind, powerChecked_eq]
  rfl

theorem decodeChecked_eq (bytes : Bytes) :
    group.decodeChecked bytes = CheckedTry.ofExcept (group.decode bytes) := by
  simp only [decodeChecked, decode, containsChecked_eq group.modulus_pos, CheckedTry.lift_pure,
    pure_bind]
  split
  · rfl
  · split
    · rfl
    · rw [contains]
      split <;> rfl

theorem ofSampleChecked?_eq (bytes : Bytes) :
    group.ofSampleChecked? bytes = pure (group.ofSample? bytes) := by
  have square (value : Nat) :
      Modular.power group.modulus value 2 = value * value % group.modulus := by
    rw [Modular.power_eq value 2 group.modulus_pos, Nat.pow_two]
  simp only [ofSampleChecked?, ofSample?, Checked.power_of_pos group.modulus_pos, pure_bind, square]
  split <;> rfl

/-- The subgroup with its operations checked. -/
def checkedOps : CheckedOps Residue where
  add := group.addChecked
  negate := group.negateChecked
  multiple := group.multipleChecked
  decode := group.decodeChecked
  ofSample? := group.ofSampleChecked?

theorem checkedOps_agrees : group.checkedOps.Agrees group.ops where
  add := group.addChecked_eq
  negate := group.negateChecked_eq
  multiple := group.multipleChecked_eq
  decode := group.decodeChecked_eq
  ofSample? := group.ofSampleChecked?_eq

end Operations

end ResidueGroup

namespace Ristretto

/-- The factor of a multiple, by way of a buffer of 32 bytes. -/
def factorChecked (k : Nat) : Checked Nat := do
  let reduced ← Checked.mod k order
  return Bytes.toNatLittle (← Checked.fill 32 (Bytes.digitsLittle reduced))

def multipleChecked (k : Nat) (a : Ristretto) : Checked Ristretto := do
  return ofPoint (Edwards.Point.multiple (← factorChecked k) a.point)

theorem factorChecked_eq (k : Nat) : factorChecked k = pure (k % order) := by
  have pos : 0 < order := by decide
  have narrow : Bytes.widthOf (k % order) ≤ 32 :=
    Nat.le_trans (Bytes.widthOf_mono (Nat.le_of_lt (Nat.mod_lt k pos))) (by decide)
  have fits : (Bytes.digitsLittle (k % order)).length ≤ 32 := by
    rw [Bytes.digitsLittle, Bytes.length_ofNatLittle]
    omega
  rw [factorChecked, Checked.mod_of_pos pos, pure_bind, Checked.fill_of_le fits, pure_bind,
    Bytes.toNatLittle_append_zeros, Bytes.toNatLittle_digitsLittle]

theorem multipleChecked_eq (k : Nat) (a : Ristretto) :
    multipleChecked k a = pure (ops.multiple k a) := by
  rw [multipleChecked, factorChecked_eq, pure_bind]
  rfl

/-- The group of classes with its operations checked. Only a multiple makes use of a partial
    operation. -/
def checkedOps : CheckedOps Ristretto where
  add a b := pure (ops.add a b)
  negate a := pure (ops.negate a)
  multiple := multipleChecked
  decode bytes := CheckedTry.ofExcept (decode bytes)
  ofSample? bytes := pure (ofSample? bytes)

theorem checkedOps_agrees : checkedOps.Agrees ops where
  add _ _ := rfl
  negate _ := rfl
  multiple := multipleChecked_eq
  decode _ := rfl
  ofSample? _ := rfl

end Ristretto

/-! ## Keys -/

namespace CheckedOps

section Keys

variable [DecidableEq Element] (ops : CheckedOps Element) (group : GroupOps Element)

/-- A sample as second generator. -/
def usableSample? (bytes : Bytes) : Checked (Option Element) := do
  return (← ops.ofSample? bytes).filter fun a => a ≠ group.identity ∧ a ≠ group.generator

/-- The first usable one of a number of samples. -/
def firstUsable? : Nat → Shake → Checked (Option Element)
  | 0, _ => return none
  | samples + 1, stream => do
      let (bytes, after) := stream.read group.sampleWidth
      match ← ops.usableSample? group bytes with
      | some a => return some a
      | none => firstUsable? samples after

def secondGenerator (label : Bytes) : CheckedTry AlgebraError Element := do
  let stream := Shake.ofMessage (label ++ group.encode group.generator)
  match ← ops.firstUsable? group sampleLimit stream with
  | some a => return a
  | none => throw (.noGenerator sampleLimit)

/-- The key of a group and a label. -/
def createKey (label : Bytes) : CheckedTry AlgebraError (CommitmentKey Element) :=
  if h : 1 < group.order then do
    let blindingBase ← ops.secondGenerator group label
    return { group, field := ⟨group.order, h⟩, label, blindingBase
             modulus_eq := Eq.refl group.order }
  else
    throw (.parameters .trivialModulus)

variable {ops group}

namespace Agrees

theorem usableSample? (agrees : ops.Agrees group) (bytes : Bytes) :
    ops.usableSample? group bytes = pure (group.usableSample? bytes) := by
  rw [CheckedOps.usableSample?, agrees.ofSample?]
  rfl

theorem firstUsable? (agrees : ops.Agrees group) (samples : Nat) (stream : Shake) :
    ops.firstUsable? group samples stream = pure (group.firstUsable? samples stream) := by
  induction samples generalizing stream with
  | zero => rfl
  | succ samples ih =>
      simp only [CheckedOps.firstUsable?, GroupOps.firstUsable?, agrees.usableSample?, pure_bind]
      cases group.usableSample? (stream.read group.sampleWidth).1 with
      | some a => rfl
      | none => exact ih _

theorem secondGenerator (agrees : ops.Agrees group) (label : Bytes) :
    ops.secondGenerator group label = CheckedTry.ofExcept (group.secondGenerator label) := by
  simp only [CheckedOps.secondGenerator, GroupOps.secondGenerator, agrees.firstUsable?,
    CheckedTry.lift_pure, pure_bind]
  cases group.firstUsable? sampleLimit
    (Shake.ofMessage (label ++ group.encode group.generator)) <;> rfl

theorem createKey (agrees : ops.Agrees group) (label : Bytes) :
    ops.createKey group label = CheckedTry.ofExcept (CommitmentKey.create group label) := by
  rw [CheckedOps.createKey, CommitmentKey.create]
  split
  · rw [agrees.secondGenerator]
    exact CheckedTry.ofExcept_bind fun _ _ => rfl
  · rfl

end Agrees

end Keys

section Commitments

variable (ops : CheckedOps Element) (key : CommitmentKey Element)

/-- The multiple of an element by a scalar. -/
def scale (k : Scalar) (a : Element) : Checked Element :=
  ops.multiple k.value a

/-- A commitment in which another element takes the place of the first generator. -/
def commitWith (base : Element) (secret blinding : Scalar) : Checked Element := do
  let first ← ops.scale secret base
  let second ← ops.scale blinding key.blindingBase
  ops.add first second

def commit (secret blinding : Scalar) : Checked Element :=
  ops.commitWith key key.group.generator secret blinding

variable {ops key}

namespace Agrees

variable (agrees : ops.Agrees key.group)
include agrees

theorem scale (k : Scalar) (a : Element) : ops.scale k a = pure (key.scale k a) :=
  agrees.multiple k.value a

theorem commitWith (base : Element) (secret blinding : Scalar) :
    ops.commitWith key base secret blinding = pure (key.commitWith base secret blinding) := by
  rw [CheckedOps.commitWith, agrees.scale, pure_bind, agrees.scale, pure_bind, agrees.add]
  rfl

theorem commit (secret blinding : Scalar) :
    ops.commit key secret blinding = pure (key.commit secret blinding) :=
  agrees.commitWith _ _ _

end Agrees

end Commitments

end CheckedOps

end CommitScript

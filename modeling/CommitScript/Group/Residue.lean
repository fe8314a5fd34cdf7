import CommitScript.Group.Basic

/-! # Residues of a safe prime

For a safe prime twice the order plus one, the residues whose power to the order is one form
the subgroup of squares. Addition is multiplication of residues and a multiple is a power.
Decoding checks membership, so every accepted residue lies in the subgroup.
-/

namespace CommitScript

/-- An element of the subgroup, by its least positive residue. -/
structure Residue where
  value : Nat
  deriving Repr, DecidableEq

/-- A modulus with a generator of its subgroup of squares. Whether the modulus and the order
    are prime is up to whoever chooses them. -/
structure ResidueGroup where
  modulus : Nat
  generator : Nat
  modulus_large : 3 < modulus
  modulus_odd : modulus % 2 = 1
  generator_large : 1 < generator
  generator_small : generator < modulus
  generator_inside : Modular.power modulus generator ((modulus - 1) / 2) = 1

namespace ResidueGroup

/-- The number of residues in the subgroup. -/
def order (group : ResidueGroup) : Nat :=
  (group.modulus - 1) / 2

/-- How many bytes a residue is encoded in. -/
def width (group : ResidueGroup) : Nat :=
  Bytes.widthOf group.modulus

/-- The group of a modulus and a generator. The modulus is looked at first, then the range of
    the generator, then its order. -/
def ofParameters (modulus generator : Nat) : Except AlgebraError ResidueGroup :=
  if hp : 3 < modulus ∧ modulus % 2 = 1 then
    if hg : 1 < generator ∧ generator < modulus then
      if ho : Modular.power modulus generator ((modulus - 1) / 2) = 1 then
        .ok ⟨modulus, generator, hp.1, hp.2, hg.1, hg.2, ho⟩
      else .error (.parameters .generatorOrder)
    else .error (.parameters .generatorRange)
  else .error (.parameters .notSafePrime)

/-- Whether a residue lies in the subgroup. -/
def contains (group : ResidueGroup) (value : Nat) : Bool :=
  Modular.power group.modulus value group.order == 1

def power (group : ResidueGroup) (a : Residue) (exponent : Nat) : Residue :=
  ⟨Modular.power group.modulus a.value exponent⟩

def decode (group : ResidueGroup) (bytes : Bytes) : Except AlgebraError Residue :=
  let value := Bytes.toNatBig bytes
  if bytes.length ≠ group.width then
    .error (.encoding (.residueWidth group.width bytes.length))
  else if value = 0 ∨ group.modulus ≤ value then
    .error (.encoding .residueRange)
  else if group.contains value then
    .ok ⟨value⟩
  else
    .error (.encoding .residueOutside)

/-- Squares a sample, which lands in the subgroup. Samples out of range and those whose
    square is one are refused. -/
def ofSample? (group : ResidueGroup) (bytes : Bytes) : Option Residue :=
  let value := Bytes.toNatBig bytes
  if value ≤ 1 ∨ group.modulus ≤ value then none
  else
    let square := value * value % group.modulus
    if square = 1 then none else some ⟨square⟩

/-- The subgroup as a group. -/
def ops (group : ResidueGroup) : GroupOps Residue where
  name := "modp-safe-prime"
  order := group.order
  generator := ⟨group.generator⟩
  identity := ⟨1⟩
  add a b := ⟨a.value * b.value % group.modulus⟩
  negate a := group.power a (group.modulus - 2)
  multiple k a := group.power a (k % group.order)
  encode a := Bytes.ofNatBig group.width a.value
  decode := group.decode
  sampleWidth := group.width
  ofSample? := group.ofSample?

/-- The prime of the standard 2048-bit group, in words of 64 bits, the highest first. -/
def primeWords2048 : List Nat :=
  [0xFFFFFFFFFFFFFFFF, 0xC90FDAA22168C234, 0xC4C6628B80DC1CD1, 0x29024E088A67CC74,
   0x020BBEA63B139B22, 0x514A08798E3404DD, 0xEF9519B3CD3A431B, 0x302B0A6DF25F1437,
   0x4FE1356D6D51C245, 0xE485B576625E7EC6, 0xF44C42E9A637ED6B, 0x0BFF5CB6F406B7ED,
   0xEE386BFB5A899FA5, 0xAE9F24117C4B1FE6, 0x49286651ECE45B3D, 0xC2007CB8A163BF05,
   0x98DA48361C55D39A, 0x69163FA8FD24CF5F, 0x83655D23DCA3AD96, 0x1C62F356208552BB,
   0x9ED529077096966D, 0x670C354E4ABC9804, 0xF1746C08CA18217C, 0x32905E462E36CE3B,
   0xE39E772C180E8603, 0x9B2783A2EC07A28F, 0xB5C55DF06F4C52C9, 0xDE2BCBF695581718,
   0x3995497CEA956AE5, 0x15D2261898FA0510, 0x15728E5A8AACAA68, 0xFFFFFFFFFFFFFFFF]

/-- The prime of the standard 2048-bit group. -/
def prime2048 : Nat :=
  primeWords2048.foldl (fun n word => (n <<< 64) + word) 0

end ResidueGroup

end CommitScript

import CommitScript.Group.Residue
import CommitScript.Group.Ristretto

/-! # Choice of group

The two groups that settings can name.
-/

namespace CommitScript

/-- A group that can be chosen by name. -/
inductive GroupKind where
  | ristretto
  | residue
  deriving Repr, DecidableEq

namespace GroupKind

def name : GroupKind → String
  | ristretto => "ristretto"
  | residue => "modp"

/-- The group of exactly this name. -/
def ofName? (name : String) : Option GroupKind :=
  if name = "ristretto" then some ristretto
  else if name = "modp" then some residue
  else none

/-- The group that a user names, who may use either case and some other words. The fault
    repeats the name in lowercase. -/
def read (text : String) : Except AlgebraError GroupKind :=
  let name := String.ofList (text.toList.map Char.toLower)
  if name ∈ ["ristretto", "ristretto255", "ec"] then .ok ristretto
  else if name ∈ ["modp", "mod-p", "subgroup"] then .ok residue
  else .error (.parameters (.unknownGroup name))

end GroupKind

/-- The standard group of residues of a 2048-bit safe prime, with generator four. -/
def ResidueGroup.standard2048 : ResidueGroup where
  modulus := prime2048
  generator := 4
  modulus_large := by decide +kernel
  modulus_odd := by decide +kernel
  generator_large := by decide
  generator_small := by decide +kernel
  generator_inside := by decide +kernel

end CommitScript

import CommitScript.Algebra.Error

/-! # Kinds of proofs

The three relations that can be proved, and why a proof cannot be read or checked.
-/

namespace CommitScript

/-- The relation that a proof is about. -/
inductive ProofKind where
  /-- A commitment hides a public value. -/
  | value
  /-- Two commitments hide the same secret. -/
  | same
  /-- A commitment hides the square of what another one hides. -/
  | square
  deriving Repr, DecidableEq

namespace ProofKind

/-- The name of a relation, which also opens its part of a challenge history. -/
def name : ProofKind → String
  | value => "value-knowledge"
  | same => "blinding-equality"
  | square => "squared-value"

/-- How many fields a proof of the relation is written in. -/
def fieldCount : ProofKind → Nat
  | value => 3
  | same => 1
  | square => 6

end ProofKind

/-- Why a proof cannot be read or checked. -/
inductive ProofError where
  /-- A field encodes nothing. -/
  | algebra (fault : AlgebraError)
  /-- The number of fields is wrong for the kind. -/
  | fieldCount (kind : ProofKind) (actual : Nat)
  /-- The proof is about another relation than the claim. -/
  | mismatch (claim proof : ProofKind)
  deriving Repr, DecidableEq

/-- The wording of a proof fault. -/
def ProofError.message : ProofError → String
  | algebra fault => fault.message
  | fieldCount kind actual => s!"{kind.name} proof expects {kind.fieldCount} fields, got {actual}"
  | mismatch claim proof =>
      s!"{claim.name} statement cannot be checked with a {proof.name} proof"

end CommitScript

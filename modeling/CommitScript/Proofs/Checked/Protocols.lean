import CommitScript.Proofs.Checked.Groups
import CommitScript.Proofs.ProofCodec

/-! # Checked proofs

Making, reading and checking proofs of each kind with every partial operation checked. The fields
of a proof are taken by their places, behind a look at how many there are. Only a proof of a
shared secret asks for something: the blinding that is taken away has to be reduced.
-/

namespace CommitScript

variable {Element : Type} (ops : CheckedOps Element) (key : CommitmentKey Element)

/-- The scalar in one of some fields. -/
def ScalarField.fieldChecked (field : ScalarField) (fields : List String) (place : Nat) :
    CheckedTry AlgebraError Scalar := do
  let text ← (Checked.item fields place : Checked String)
  CheckedTry.ofExcept (field.ofHex text)

/-- The element in one of some fields. -/
def CheckedOps.fieldChecked (fields : List String) (place : Nat) :
    CheckedTry AlgebraError Element := do
  let text ← (Checked.item fields place : Checked String)
  ops.ofHex text

theorem ScalarField.fieldChecked_eq (field : ScalarField) {fields : List String} {place : Nat}
    {text : String} (h : fields[place]? = some text) :
    field.fieldChecked fields place = CheckedTry.ofExcept (field.ofHex text) := by
  rw [fieldChecked, Checked.item_of_eq_some h, CheckedTry.lift_pure, pure_bind]

variable {ops key} in
theorem CheckedOps.Agrees.fieldChecked_eq (agrees : ops.Agrees key.group) {fields : List String}
    {place : Nat} {text : String} (h : fields[place]? = some text) :
    ops.fieldChecked fields place = CheckedTry.ofExcept (key.group.ofHex text) := by
  rw [fieldChecked, Checked.item_of_eq_some h, CheckedTry.lift_pure, pure_bind, agrees.ofHex]

namespace ValueProof

def drawChallengeChecked (history : ChallengeHistory) (commitment : Element) (value : Scalar)
    (nonceCommitment : Element) : Checked (Scalar × ChallengeHistory) :=
  (statement key history commitment value nonceCommitment).drawChecked "c" key.field

def proveChecked (history : ChallengeHistory) (commitment : Element)
    (value blinding nonce : Scalar) : Checked (ValueProof Element × ChallengeHistory) := do
  let nonceCommitment ← ops.scale nonce key.blindingBase
  let drawn ← drawChallengeChecked key history commitment value nonceCommitment
  let product ← key.field.mulChecked drawn.1 blinding
  let response ← key.field.addChecked nonce product
  return ({ nonceCommitment, challenge := drawn.1, response }, drawn.2)

/-- The equation between a proof and what it is about. -/
def holdsChecked [DecidableEq Element] (commitment : Element) (value : Scalar)
    (proof : ValueProof Element) : Checked Bool := do
  let rest ← ops.sub commitment (← ops.scale value key.group.generator)
  let left ← ops.scale proof.response key.blindingBase
  let right ← ops.add proof.nonceCommitment (← ops.scale proof.challenge rest)
  return decide (left = right)

/-- Checks a proof. A wrong challenge ends the check at once. -/
def verifyChecked [DecidableEq Element] (history : ChallengeHistory) (commitment : Element)
    (value : Scalar) (proof : ValueProof Element) : Checked (Bool × ChallengeHistory) := do
  let drawn ← drawChallengeChecked key history commitment value proof.nonceCommitment
  if drawn.1 = proof.challenge then
    return (← holdsChecked ops key commitment value proof, drawn.2)
  else
    return (false, drawn.2)

def ofFieldsChecked (fields : List String) : CheckedTry ProofError (ValueProof Element) :=
  if fields.length ≠ ProofKind.value.fieldCount then throw (.fieldCount .value fields.length)
  else CheckedTry.mapError .algebra do
    let nonceCommitment ← ops.fieldChecked fields 0
    let challenge ← key.field.fieldChecked fields 1
    let response ← key.field.fieldChecked fields 2
    return { nonceCommitment, challenge, response }

variable {ops key} (agrees : ops.Agrees key.group)
include agrees

theorem proveChecked_eq (history : ChallengeHistory) (commitment : Element)
    (value blinding nonce : Scalar) :
    proveChecked ops key history commitment value blinding nonce =
      pure (prove key history commitment value blinding nonce) := by
  simp only [proveChecked, drawChallengeChecked, agrees.scale, ChallengeHistory.drawChecked_eq,
    ScalarField.mulChecked_eq, ScalarField.addChecked_eq, pure_bind]
  rfl

theorem holdsChecked_eq [DecidableEq Element] (commitment : Element) (value : Scalar)
    (proof : ValueProof Element) :
    holdsChecked ops key commitment value proof =
      pure (decide (Holds key commitment value proof)) := by
  simp only [holdsChecked, agrees.scale, agrees.sub, agrees.add, pure_bind]
  rfl

theorem verifyChecked_eq [DecidableEq Element] (history : ChallengeHistory) (commitment : Element)
    (value : Scalar) (proof : ValueProof Element) :
    verifyChecked ops key history commitment value proof =
      pure (verify key history commitment value proof) := by
  rw [verifyChecked, verify, drawChallengeChecked, ChallengeHistory.drawChecked_eq, pure_bind,
    holdsChecked_eq agrees, ← drawChallenge]
  split
  · next right =>
    simp only [right, true_and]
    rfl
  · next wrong =>
    simp only [wrong, false_and]
    rfl

theorem ofFieldsChecked_eq {fields : List String}
    (count : fields.length = ProofKind.value.fieldCount) :
    ofFieldsChecked ops key fields = CheckedTry.ofExcept (ofFields key fields) := by
  rw [ofFieldsChecked, if_neg (not_not.mpr count)]
  obtain ⟨nonceCommitment, challenge, response, rfl⟩ := List.length_eq_three.mp count
  rw [ofFields, ← CheckedTry.mapError_ofExcept, agrees.fieldChecked_eq rfl,
    ScalarField.fieldChecked_eq _ rfl, ScalarField.fieldChecked_eq _ rfl]
  exact congrArg _ (CheckedTry.ofExcept_bind fun _ _ => CheckedTry.ofExcept_bind fun _ _ =>
    CheckedTry.ofExcept_bind fun _ _ => rfl)

end ValueProof

namespace SameProof

/-- Proves that two commitments hide the same secret. -/
def proveChecked (history : ChallengeHistory) (left right : Element)
    (leftBlinding rightBlinding : Scalar) : Checked (SameProof × ChallengeHistory) := do
  let proof : SameProof := { difference := ← key.field.subChecked leftBlinding rightBlinding }
  return (proof, statement key history left right proof)

def verifyChecked [DecidableEq Element] (history : ChallengeHistory) (left right : Element)
    (proof : SameProof) : Checked (Bool × ChallengeHistory) := do
  let difference ← ops.sub left right
  let multiple ← ops.scale proof.difference key.blindingBase
  return (decide (difference = multiple), statement key history left right proof)

def ofFieldsChecked (fields : List String) : CheckedTry ProofError SameProof :=
  if fields.length ≠ ProofKind.same.fieldCount then throw (.fieldCount .same fields.length)
  else CheckedTry.mapError .algebra do
    let difference ← key.field.fieldChecked fields 0
    return { difference }

/-- The blinding that is taken away has to be reduced. -/
theorem proveChecked_eq (history : ChallengeHistory) (left right : Element) (leftBlinding : Scalar)
    {rightBlinding : Scalar} (h : key.field.Reduced rightBlinding) :
    proveChecked key history left right leftBlinding rightBlinding =
      pure (prove key history left right leftBlinding rightBlinding) := by
  rw [proveChecked, key.field.subChecked_eq leftBlinding h, pure_bind]
  rfl

variable {ops key} in
theorem verifyChecked_eq [DecidableEq Element] (agrees : ops.Agrees key.group)
    (history : ChallengeHistory) (left right : Element) (proof : SameProof) :
    verifyChecked ops key history left right proof =
      pure (verify key history left right proof) := by
  simp only [verifyChecked, agrees.sub, agrees.scale, pure_bind]
  rfl

theorem ofFieldsChecked_eq {fields : List String}
    (count : fields.length = ProofKind.same.fieldCount) :
    ofFieldsChecked key fields = CheckedTry.ofExcept (ofFields key fields) := by
  rw [ofFieldsChecked, if_neg (not_not.mpr count)]
  obtain ⟨difference, rfl⟩ := List.length_eq_one_iff.mp count
  rw [ofFields, ← CheckedTry.mapError_ofExcept, ScalarField.fieldChecked_eq _ rfl]
  exact congrArg _ (CheckedTry.ofExcept_bind fun _ _ => rfl)

end SameProof

namespace SquareProof

def drawChallengeChecked (history : ChallengeHistory)
    (source squared sourceCommitment squareCommitment : Element) :
    Checked (Scalar × ChallengeHistory) :=
  (statement key history source squared sourceCommitment squareCommitment).drawChecked "k" key.field

/-- The response to a challenge. -/
def responseChecked (challenge witness nonce : Scalar) : Checked Scalar := do
  key.field.addChecked (← key.field.mulChecked challenge witness) nonce

/-- Squares the secret behind a source and proves the relation. -/
def proveChecked (history : ChallengeHistory) (source : Element) (secret blinding : Scalar)
    (nonces : SquareNonces) : Checked (Squared Element × ChallengeHistory) := do
  let squared ← ops.commitWith key source secret nonces.blinding
  let sourceCommitment ← ops.commit key nonces.secretNonce nonces.sourceNonce
  let squareCommitment ← ops.commitWith key source nonces.secretNonce nonces.squareNonce
  let drawn ← drawChallengeChecked key history source squared sourceCommitment squareCommitment
  let secretResponse ← responseChecked key drawn.1 secret nonces.secretNonce
  let sourceResponse ← responseChecked key drawn.1 blinding nonces.sourceNonce
  let squareResponse ← responseChecked key drawn.1 nonces.blinding nonces.squareNonce
  let square ← key.field.mulChecked secret secret
  let product ← key.field.mulChecked secret blinding
  let squareBlinding ← key.field.addChecked product nonces.blinding
  return ({ commitment := squared
            secret := square
            blinding := squareBlinding
            proof := { sourceCommitment, squareCommitment, challenge := drawn.1, secretResponse,
                       sourceResponse, squareResponse } }, drawn.2)

/-- The two equations between a proof and what it is about. -/
def holdsChecked [DecidableEq Element] (source squared : Element) (proof : SquareProof Element) :
    Checked Bool := do
  let left ← ops.add proof.sourceCommitment (← ops.scale proof.challenge source)
  let right ← ops.commit key proof.secretResponse proof.sourceResponse
  let leftSquare ← ops.add proof.squareCommitment (← ops.scale proof.challenge squared)
  let rightSquare ← ops.commitWith key source proof.secretResponse proof.squareResponse
  return decide (left = right ∧ leftSquare = rightSquare)

/-- Checks a proof. A wrong challenge ends the check at once. -/
def verifyChecked [DecidableEq Element] (history : ChallengeHistory) (source squared : Element)
    (proof : SquareProof Element) : Checked (Bool × ChallengeHistory) := do
  let drawn ← drawChallengeChecked key history source squared proof.sourceCommitment
    proof.squareCommitment
  if drawn.1 = proof.challenge then
    return (← holdsChecked ops key source squared proof, drawn.2)
  else
    return (false, drawn.2)

def ofFieldsChecked (fields : List String) : CheckedTry ProofError (SquareProof Element) :=
  if fields.length ≠ ProofKind.square.fieldCount then throw (.fieldCount .square fields.length)
  else CheckedTry.mapError .algebra do
    let sourceCommitment ← ops.fieldChecked fields 0
    let squareCommitment ← ops.fieldChecked fields 1
    let challenge ← key.field.fieldChecked fields 2
    let secretResponse ← key.field.fieldChecked fields 3
    let sourceResponse ← key.field.fieldChecked fields 4
    let squareResponse ← key.field.fieldChecked fields 5
    return { sourceCommitment, squareCommitment, challenge, secretResponse, sourceResponse,
             squareResponse }

theorem responseChecked_eq (challenge witness nonce : Scalar) :
    responseChecked key challenge witness nonce =
      pure (key.field.add (key.field.mul challenge witness) nonce) := by
  simp only [responseChecked, ScalarField.mulChecked_eq, ScalarField.addChecked_eq, pure_bind]

variable {ops key} (agrees : ops.Agrees key.group)
include agrees

theorem proveChecked_eq (history : ChallengeHistory) (source : Element) (secret blinding : Scalar)
    (nonces : SquareNonces) :
    proveChecked ops key history source secret blinding nonces =
      pure (prove key history source secret blinding nonces) := by
  simp only [proveChecked, drawChallengeChecked, agrees.commit, agrees.commitWith,
    ChallengeHistory.drawChecked_eq, responseChecked_eq, ScalarField.mulChecked_eq,
    ScalarField.addChecked_eq, pure_bind]
  rfl

theorem holdsChecked_eq [DecidableEq Element] (source squared : Element)
    (proof : SquareProof Element) :
    holdsChecked ops key source squared proof =
      pure (decide (Holds key source squared proof)) := by
  simp only [holdsChecked, agrees.scale, agrees.add, agrees.commit, agrees.commitWith, pure_bind]
  rfl

theorem verifyChecked_eq [DecidableEq Element] (history : ChallengeHistory)
    (source squared : Element) (proof : SquareProof Element) :
    verifyChecked ops key history source squared proof =
      pure (verify key history source squared proof) := by
  rw [verifyChecked, verify, drawChallengeChecked, ChallengeHistory.drawChecked_eq, pure_bind,
    holdsChecked_eq agrees, ← drawChallenge]
  split
  · next right =>
    simp only [right, true_and]
    rfl
  · next wrong =>
    simp only [wrong, false_and]
    rfl

theorem ofFieldsChecked_eq {fields : List String}
    (count : fields.length = ProofKind.square.fieldCount) :
    ofFieldsChecked ops key fields = CheckedTry.ofExcept (ofFields key fields) := by
  rw [ofFieldsChecked, if_neg (not_not.mpr count)]
  obtain ⟨sourceCommitment, squareCommitment, challenge, secret, source, square, rfl⟩ :
      ∃ a b c d e f, fields = [a, b, c, d, e, f] := by
    match fields, count with
    | [a, b, c, d, e, f], _ => exact ⟨a, b, c, d, e, f, rfl⟩
  rw [ofFields, ← CheckedTry.mapError_ofExcept, agrees.fieldChecked_eq rfl,
    agrees.fieldChecked_eq rfl, ScalarField.fieldChecked_eq _ rfl,
    ScalarField.fieldChecked_eq _ rfl, ScalarField.fieldChecked_eq _ rfl,
    ScalarField.fieldChecked_eq _ rfl]
  exact congrArg _ (CheckedTry.ofExcept_bind fun _ _ => CheckedTry.ofExcept_bind fun _ _ =>
    CheckedTry.ofExcept_bind fun _ _ => CheckedTry.ofExcept_bind fun _ _ =>
    CheckedTry.ofExcept_bind fun _ _ => CheckedTry.ofExcept_bind fun _ _ => rfl)

end SquareProof

namespace Proof

/-- Reads the fields of a proof of a kind. How many there are is looked at here and again for the
    kind. -/
def ofFieldsChecked (kind : ProofKind) (fields : List String) :
    CheckedTry ProofError (Proof Element) :=
  if fields.length ≠ kind.fieldCount then throw (.fieldCount kind fields.length)
  else match kind with
    | .value => do return value (← ValueProof.ofFieldsChecked ops key fields)
    | .same => do return same (← SameProof.ofFieldsChecked key fields)
    | .square => do return square (← SquareProof.ofFieldsChecked ops key fields)

/-- Checks a proof against a claim. -/
def verifyChecked [DecidableEq Element] (history : ChallengeHistory) :
    Claim Element → Proof Element → CheckedTry ProofError (Bool × ChallengeHistory)
  | .value commitment v, value proof => ValueProof.verifyChecked ops key history commitment v proof
  | .same left right, same proof => SameProof.verifyChecked ops key history left right proof
  | .square source squared, square proof =>
      SquareProof.verifyChecked ops key history source squared proof
  | claim, proof => throw (.mismatch claim.kind proof.kind)

variable {ops key} (agrees : ops.Agrees key.group)
include agrees

theorem ofFieldsChecked_eq (kind : ProofKind) (fields : List String) :
    ofFieldsChecked ops key kind fields = CheckedTry.ofExcept (ofFields key kind fields) := by
  unfold ofFieldsChecked
  split_ifs with count
  · rw [ofFields_of_length count]
    rfl
  · have count := not_not.mp count
    cases kind with
    | value =>
        rw [ValueProof.ofFieldsChecked_eq agrees count]
        exact CheckedTry.ofExcept_map _ _
    | same =>
        rw [SameProof.ofFieldsChecked_eq key count]
        exact CheckedTry.ofExcept_map _ _
    | square =>
        rw [SquareProof.ofFieldsChecked_eq agrees count]
        exact CheckedTry.ofExcept_map _ _

theorem verifyChecked_eq [DecidableEq Element] (history : ChallengeHistory)
    (claim : Claim Element) (proof : Proof Element) :
    verifyChecked ops key history claim proof =
      CheckedTry.ofExcept (verify key history claim proof) := by
  cases claim <;> cases proof
  case value.value =>
    rw [verifyChecked, ValueProof.verifyChecked_eq agrees]
    rfl
  case same.same =>
    rw [verifyChecked, SameProof.verifyChecked_eq agrees]
    rfl
  case square.square =>
    rw [verifyChecked, SquareProof.verifyChecked_eq agrees]
    rfl
  all_goals rfl

end Proof

end CommitScript

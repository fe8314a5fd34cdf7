import CommitScript.Commitment.Key
import CommitScript.Proof.Kind

/-! # Proofs of a public value

A commitment hides a public value exactly when taking the value away leaves a multiple of the
blinding generator. The proof shows knowledge of that multiple: it commits to a nonce, draws
a challenge and answers with nonce plus challenge times blinding.
-/

namespace CommitScript

variable {Element : Type}

/-- A proof that a commitment hides a public value. -/
structure ValueProof (Element : Type) where
  /-- The multiple of the blinding generator by the nonce. -/
  nonceCommitment : Element
  challenge : Scalar
  /-- Nonce plus challenge times blinding. -/
  response : Scalar
  deriving Repr, DecidableEq

namespace ValueProof

/-- The history after everything that the challenge depends on. -/
def statement (key : CommitmentKey Element) (history : ChallengeHistory) (commitment : Element)
    (value : Scalar) (nonceCommitment : Element) : ChallengeHistory :=
  history
    |>.message "protocol" (Bytes.ofString ProofKind.value.name)
    |>.message "C" (key.group.encode commitment)
    |>.message "v" (key.field.encode value)
    |>.message "u" (key.group.encode nonceCommitment)

def drawChallenge (key : CommitmentKey Element) (history : ChallengeHistory)
    (commitment : Element) (value : Scalar) (nonceCommitment : Element) :
    Scalar × ChallengeHistory :=
  (statement key history commitment value nonceCommitment).draw "c" key.field

/-- The commitment to a nonce. -/
def commitNonce (key : CommitmentKey Element) (nonce : Scalar) : Element :=
  key.scale nonce key.blindingBase

/-- The proof that answers a challenge. -/
def respond (key : CommitmentKey Element) (blinding nonce challenge : Scalar) :
    ValueProof Element where
  nonceCommitment := commitNonce key nonce
  challenge := challenge
  response := key.field.add nonce (key.field.mul challenge blinding)

/-- Proves that a commitment hides a value under a blinding. Nothing is checked, so a wrong
    value or blinding gives a proof that fails. -/
def prove (key : CommitmentKey Element) (history : ChallengeHistory) (commitment : Element)
    (value blinding nonce : Scalar) : ValueProof Element × ChallengeHistory :=
  let drawn := drawChallenge key history commitment value (commitNonce key nonce)
  (respond key blinding nonce drawn.1, drawn.2)

/-- The equation between a proof and what it is about. -/
def Holds (key : CommitmentKey Element) (commitment : Element) (value : Scalar)
    (proof : ValueProof Element) : Prop :=
  key.scale proof.response key.blindingBase =
    key.group.add proof.nonceCommitment
      (key.scale proof.challenge
        (key.group.sub commitment (key.scale value key.group.generator)))

instance [DecidableEq Element] (key : CommitmentKey Element) (commitment : Element)
    (value : Scalar) (proof : ValueProof Element) : Decidable (Holds key commitment value proof) :=
  inferInstanceAs (Decidable (_ = _))

/-- Checks a proof: the challenge is the one of the history and the equation holds. The
    history goes on alike whether the proof passes or not. -/
def verify [DecidableEq Element] (key : CommitmentKey Element) (history : ChallengeHistory)
    (commitment : Element) (value : Scalar) (proof : ValueProof Element) :
    Bool × ChallengeHistory :=
  let drawn := drawChallenge key history commitment value proof.nonceCommitment
  (decide (drawn.1 = proof.challenge ∧ Holds key commitment value proof), drawn.2)

/-- The fields of a proof: nonce commitment, challenge, response. -/
def toFields (key : CommitmentKey Element) (proof : ValueProof Element) : List String :=
  [key.group.toHex proof.nonceCommitment, key.field.toHex proof.challenge,
    key.field.toHex proof.response]

def ofFields (key : CommitmentKey Element) : List String → Except ProofError (ValueProof Element)
  | [nonceCommitment, challenge, response] =>
      Except.mapError .algebra do
        let nonceCommitment ← key.group.ofHex nonceCommitment
        let challenge ← key.field.ofHex challenge
        let response ← key.field.ofHex response
        return { nonceCommitment, challenge, response }
  | fields => .error (.fieldCount .value fields.length)

end ValueProof

end CommitScript

import CommitScript.Commitment.Key
import CommitScript.Proof.Kind

/-! # Proofs of a square

A commitment to a secret, used as the generator of a second commitment to the same secret,
gives a commitment to the square. The proof runs two protocols for knowledge of an opening
with one challenge; they share the response for the secret, so the secret is the same in
both.
-/

namespace CommitScript

variable {Element : Type}

/-- The random scalars of a proof, in the order in which they are drawn. -/
structure SquareNonces where
  /-- The blinding of the new commitment relative to the old one. -/
  blinding : Scalar
  /-- The nonce for the secret. -/
  secretNonce : Scalar
  /-- The nonce for the blinding of the source. -/
  sourceNonce : Scalar
  /-- The nonce for the blinding of the new commitment. -/
  squareNonce : Scalar
  deriving Repr, DecidableEq

/-- A proof that a commitment hides the square of what a source hides. -/
structure SquareProof (Element : Type) where
  /-- The nonces committed under the usual generators. -/
  sourceCommitment : Element
  /-- The nonces committed with the source as generator. -/
  squareCommitment : Element
  challenge : Scalar
  secretResponse : Scalar
  sourceResponse : Scalar
  squareResponse : Scalar
  deriving Repr, DecidableEq

/-- What squaring a committed secret gives. -/
structure Squared (Element : Type) where
  /-- The new commitment. -/
  commitment : Element
  secret : Scalar
  /-- The blinding of the new commitment relative to the usual generators. -/
  blinding : Scalar
  proof : SquareProof Element
  deriving Repr, DecidableEq

namespace SquareProof

/-- The history after everything that the challenge depends on. -/
def statement (key : CommitmentKey Element) (history : ChallengeHistory)
    (source squared sourceCommitment squareCommitment : Element) : ChallengeHistory :=
  history
    |>.message "protocol" (Bytes.ofString ProofKind.square.name)
    |>.message "C1" (key.group.encode source)
    |>.message "C2" (key.group.encode squared)
    |>.message "c3" (key.group.encode sourceCommitment)
    |>.message "c4" (key.group.encode squareCommitment)

def drawChallenge (key : CommitmentKey Element) (history : ChallengeHistory)
    (source squared sourceCommitment squareCommitment : Element) : Scalar × ChallengeHistory :=
  (statement key history source squared sourceCommitment squareCommitment).draw "k" key.field

/-- The commitment to the nonces under the usual generators. -/
def commitSource (key : CommitmentKey Element) (nonces : SquareNonces) : Element :=
  key.commit nonces.secretNonce nonces.sourceNonce

/-- The commitment to the nonces with the source as generator. -/
def commitSquare (key : CommitmentKey Element) (source : Element) (nonces : SquareNonces) :
    Element :=
  key.commitWith source nonces.secretNonce nonces.squareNonce

/-- The commitment to the square. -/
def squareOf (key : CommitmentKey Element) (source : Element) (secret : Scalar)
    (nonces : SquareNonces) : Element :=
  key.commitWith source secret nonces.blinding

/-- The proof that answers a challenge. -/
def respond (key : CommitmentKey Element) (source : Element) (secret blinding : Scalar)
    (nonces : SquareNonces) (challenge : Scalar) : SquareProof Element :=
  let response (witness nonce : Scalar) := key.field.add (key.field.mul challenge witness) nonce
  { sourceCommitment := commitSource key nonces
    squareCommitment := commitSquare key source nonces
    challenge := challenge
    secretResponse := response secret nonces.secretNonce
    sourceResponse := response blinding nonces.sourceNonce
    squareResponse := response nonces.blinding nonces.squareNonce }

/-- Squares the secret behind a source and proves the relation. -/
def prove (key : CommitmentKey Element) (history : ChallengeHistory) (source : Element)
    (secret blinding : Scalar) (nonces : SquareNonces) : Squared Element × ChallengeHistory :=
  let squared := squareOf key source secret nonces
  let drawn := drawChallenge key history source squared (commitSource key nonces)
    (commitSquare key source nonces)
  ({ commitment := squared
     secret := key.field.mul secret secret
     blinding := key.field.add (key.field.mul secret blinding) nonces.blinding
     proof := respond key source secret blinding nonces drawn.1 }, drawn.2)

/-- The two equations between a proof and what it is about. -/
def Holds (key : CommitmentKey Element) (source squared : Element) (proof : SquareProof Element) :
    Prop :=
  key.group.add proof.sourceCommitment (key.scale proof.challenge source) =
      key.commit proof.secretResponse proof.sourceResponse ∧
    key.group.add proof.squareCommitment (key.scale proof.challenge squared) =
      key.commitWith source proof.secretResponse proof.squareResponse

instance [DecidableEq Element] (key : CommitmentKey Element) (source squared : Element)
    (proof : SquareProof Element) : Decidable (Holds key source squared proof) :=
  inferInstanceAs (Decidable (_ ∧ _))

/-- Checks a proof: the challenge is the one of the history and the equations hold. The
    history goes on alike whether the proof passes or not. -/
def verify [DecidableEq Element] (key : CommitmentKey Element) (history : ChallengeHistory)
    (source squared : Element) (proof : SquareProof Element) : Bool × ChallengeHistory :=
  let drawn :=
    drawChallenge key history source squared proof.sourceCommitment proof.squareCommitment
  (decide (drawn.1 = proof.challenge ∧ Holds key source squared proof), drawn.2)

/-- The fields of a proof: both commitments, the challenge, the responses. -/
def toFields (key : CommitmentKey Element) (proof : SquareProof Element) : List String :=
  [key.group.toHex proof.sourceCommitment, key.group.toHex proof.squareCommitment,
    key.field.toHex proof.challenge, key.field.toHex proof.secretResponse,
    key.field.toHex proof.sourceResponse, key.field.toHex proof.squareResponse]

def ofFields (key : CommitmentKey Element) :
    List String → Except ProofError (SquareProof Element)
  | [sourceCommitment, squareCommitment, challenge, secret, source, square] =>
      Except.mapError .algebra do
        let sourceCommitment ← key.group.ofHex sourceCommitment
        let squareCommitment ← key.group.ofHex squareCommitment
        let challenge ← key.field.ofHex challenge
        let secretResponse ← key.field.ofHex secret
        let sourceResponse ← key.field.ofHex source
        let squareResponse ← key.field.ofHex square
        return { sourceCommitment, squareCommitment, challenge, secretResponse, sourceResponse,
                 squareResponse }
  | fields => .error (.fieldCount .square fields.length)

end SquareProof

end CommitScript

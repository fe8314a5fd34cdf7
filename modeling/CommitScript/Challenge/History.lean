import CommitScript.Algebra.Scalar
import CommitScript.Sponge.Strobe

/-! # Challenge histories

Prover and verifier each keep a history of labelled messages and of challenges drawn so far.
A challenge is a function of the history before it, so both sides draw the same one exactly
when their histories are the same.
-/

namespace CommitScript

inductive HistoryEntry where
  /-- A message that both sides know. -/
  | message (label : String) (bytes : Bytes)
  /-- Challenge bytes that were drawn. -/
  | challenge (label : String) (length : Nat)
  deriving Repr, DecidableEq

/-- The sponge after an entry. -/
def HistoryEntry.enter (sponge : Strobe) : HistoryEntry → Strobe
  | message label bytes => sponge.message (Bytes.ofString label) bytes
  | challenge label length => (sponge.challenge (Bytes.ofString label) length).2

/-- The sponge after a whole history, whose newest entry stands first. -/
def replayHistory : List HistoryEntry → Strobe
  | [] => Strobe.start128 (Bytes.ofString "Merlin v1.0")
  | entry :: earlier => entry.enter (replayHistory earlier)

/-- What has been said and drawn so far, with the sponge that has taken it in. -/
structure ChallengeHistory where
  /-- The entries, the newest first. -/
  entries : List HistoryEntry
  sponge : Strobe
  sponge_eq : sponge = replayHistory entries

namespace ChallengeHistory

/-- The history that holds nothing. -/
def empty : ChallengeHistory where
  entries := []
  sponge := replayHistory []
  sponge_eq := rfl

def push (history : ChallengeHistory) (entry : HistoryEntry) : ChallengeHistory where
  entries := entry :: history.entries
  sponge := entry.enter history.sponge
  sponge_eq := by rw [replayHistory, history.sponge_eq]

def message (history : ChallengeHistory) (label : String) (bytes : Bytes) : ChallengeHistory :=
  history.push (.message label bytes)

/-- Draws labelled challenge bytes. -/
def drawBytes (history : ChallengeHistory) (label : String) (length : Nat) :
    Bytes × ChallengeHistory :=
  let drawn := history.sponge.challenge (Bytes.ofString label) length
  (drawn.1,
    { entries := .challenge label length :: history.entries
      sponge := drawn.2
      sponge_eq := by rw [replayHistory, ← history.sponge_eq, HistoryEntry.enter] })

/-- Draws a challenge from the whole field, with negligible bias. -/
def draw (history : ChallengeHistory) (label : String) (field : ScalarField) :
    Scalar × ChallengeHistory :=
  let drawn := history.drawBytes label field.wideWidth
  (field.ofWideBytes drawn.1, drawn.2)

/-- The history of a protocol of this name. -/
def ofProtocol (name : String) : ChallengeHistory :=
  empty.message "dom-sep" (Bytes.ofString name)

/-- Histories with the same entries are the same. -/
@[ext]
theorem ext {a b : ChallengeHistory} (h : a.entries = b.entries) : a = b := by
  obtain ⟨entries, sponge, sponge_eq⟩ := a
  obtain ⟨entries', sponge', sponge_eq'⟩ := b
  subst h sponge_eq sponge_eq'
  rfl

end ChallengeHistory

end CommitScript

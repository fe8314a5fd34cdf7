import CommitScript.Group.Ristretto
import CommitScript.Proofs.GroupLaws
import CommitScript.Proofs.Success

/-! # Canonical text

Of the texts that could stand for the same bytes only the one in lowercase is read. So every
scalar and every element has one text, and that is the text it is written as.
-/

namespace CommitScript

open Success

/-- Only the lowercase text of some bytes is read as those bytes. -/
theorem Encoded.readHex_eq_ok (what : Encoded) {text : String} {bytes : Bytes} :
    what.readHex text = .ok bytes ↔ text = Hex.encode bytes := by
  unfold Encoded.readHex
  constructor
  · intro h
    split at h
    · cases h
    · split at h
      · next written =>
        cases h
        exact written.symm
      · cases h
  · rintro rfl
    simp [Hex.decode_encode]

/-- The text of some bytes is read as what the bytes are. -/
theorem Encoded.readHex_bind_eq_ok {α : Type} (what : Encoded)
    {decode : Bytes → Except AlgebraError α} {text : String} {a : α} :
    what.readHex text >>= decode = .ok a ↔
      ∃ bytes, decode bytes = .ok a ∧ text = Hex.encode bytes := by
  simp only [except_bind_eq_ok, what.readHex_eq_ok, and_comm]

theorem ScalarField.ofHex_eq_ok {field : ScalarField} {text : String} {a : Scalar} :
    field.ofHex text = .ok a ↔ field.Reduced a ∧ text = field.toHex a := by
  rw [ScalarField.ofHex, Encoded.readHex_bind_eq_ok]
  constructor
  · rintro ⟨bytes, decoded, rfl⟩
    obtain ⟨reduced, rfl⟩ := field.decode_eq_ok decoded
    exact ⟨reduced, rfl⟩
  · rintro ⟨reduced, rfl⟩
    exact ⟨_, field.decode_encode reduced, rfl⟩

theorem GroupOps.Canonical.ofHex_eq_ok {Element : Type} {group : GroupOps Element}
    (canonical : group.Canonical) {text : String} {a : Element} :
    group.ofHex text = .ok a ↔ group.Member a ∧ text = group.toHex a := by
  rw [GroupOps.ofHex, Encoded.readHex_bind_eq_ok]
  constructor
  · rintro ⟨bytes, decoded, rfl⟩
    have encoded := canonical bytes a decoded
    exact ⟨by rwa [GroupOps.Member, encoded], by rw [GroupOps.toHex, encoded]⟩
  · rintro ⟨member, rfl⟩
    exact ⟨_, member, rfl⟩

theorem GroupOps.Laws.canonical {Element : Type} {group : GroupOps Element} (laws : group.Laws) :
    group.Canonical :=
  fun _ _ => laws.decode_canonical

theorem GroupOps.Laws.ofHex_eq_ok {Element : Type} {group : GroupOps Element}
    (laws : group.Laws) {text : String} {a : Element} :
    group.ofHex text = .ok a ↔ group.Member a ∧ text = group.toHex a :=
  laws.canonical.ofHex_eq_ok

/-- Of a canonical group the texts of elements tell the encodings apart. -/
theorem GroupOps.Canonical.encode_inj {Element : Type} {group : GroupOps Element}
    (canonical : group.Canonical) {text text' : String} {a a' : Element}
    (read : group.ofHex text = .ok a) (read' : group.ofHex text' = .ok a') :
    group.encode a' = group.encode a ↔ text' = text := by
  constructor
  · intro same
    rw [(canonical.ofHex_eq_ok.mp read).2, (canonical.ofHex_eq_ok.mp read').2, GroupOps.toHex,
      same, GroupOps.toHex]
  · rintro rfl
    cases read.symm.trans read'
    rfl

theorem ScalarField.encode_inj {field : ScalarField} {text text' : String} {a a' : Scalar}
    (read : field.ofHex text = .ok a) (read' : field.ofHex text' = .ok a') :
    field.encode a' = field.encode a ↔ text' = text := by
  constructor
  · intro same
    rw [(ofHex_eq_ok.mp read).2, (ofHex_eq_ok.mp read').2, toHex, same, toHex]
  · rintro rfl
    cases read.symm.trans read'
    rfl

/-- A class of curve points is held by its code, so it has no other encoding. -/
theorem Ristretto.ops_canonical : ops.Canonical := by
  intro bytes a h
  simp only [ops, decode] at h
  split at h
  · cases h
  · next length =>
    split at h
    · cases h
      rw [ne_eq, Decidable.not_not] at length
      simp only [ops, ← length, Bytes.ofNatLittle_toNatLittle]
    · cases h

end CommitScript

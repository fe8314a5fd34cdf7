import CommitScript.Proofs.ProofCodec
import CommitScript.Proofs.ResidueSubgroup

/-! # Canonical encodings

A reduced scalar has one encoding in bytes and one in text, and so has a residue of the subgroup.
Reading takes these and nothing else. What it does not take it refuses as an encoding, whether the
width is at fault, a digit, the range or the membership. No modulus has to be prime for this.
-/

namespace CommitScript

open Success

variable {Source α : Type}

/-- Whether reading takes what is written of genuine values, and refuses all else as no
    encoding. -/
structure ReadsExactly (read : Source → Except AlgebraError α) (write : α → Source)
    (Genuine : α → Prop) : Prop where
  accepts : ∀ source a, read source = .ok a ↔ Genuine a ∧ source = write a
  refuses : ∀ source, (∃ fault, read source = .error (.encoding fault)) ↔
    ∀ a, Genuine a → source ≠ write a

namespace ReadsExactly

variable {read : Source → Except AlgebraError α} {write : α → Source} {Genuine Genuine' : α → Prop}

theorem of_accepts (accepts : ∀ source a, read source = .ok a ↔ Genuine a ∧ source = write a)
    (only : ∀ source, Encoded.Refuses (read source)) : ReadsExactly read write Genuine where
  accepts := accepts
  refuses source := by
    constructor
    · intro ⟨fault, refused⟩ a genuine written
      have taken := (accepts source a).mpr ⟨genuine, written⟩
      cases refused.symm.trans taken
    · intro others
      cases result : read source with
      | ok a =>
          obtain ⟨genuine, written⟩ := (accepts source a).mp result
          exact absurd written (others a genuine)
      | error fault =>
          obtain ⟨cause, rfl⟩ := only source fault result
          exact ⟨cause, rfl⟩

theorem only_refuses (exact : ReadsExactly read write Genuine) (source : Source) :
    Encoded.Refuses (read source) := by
  intro fault failed
  have others : ∀ a, Genuine a → source ≠ write a := by
    intro a genuine written
    have taken := (exact.accepts source a).mpr ⟨genuine, written⟩
    cases failed.symm.trans taken
  obtain ⟨cause, refused⟩ := (exact.refuses source).mpr others
  exact ⟨cause, Except.error.inj (failed.symm.trans refused)⟩

theorem of_iff (exact : ReadsExactly read write Genuine) (same : ∀ a, Genuine a ↔ Genuine' a) :
    ReadsExactly read write Genuine' := by
  have equal : Genuine = Genuine' := funext fun a => propext (same a)
  rwa [← equal]

/-- Bytes have one text, so the text of an encoding is read exactly when the encoding is. -/
theorem text {decode : Bytes → Except AlgebraError α} {encode : α → Bytes}
    (exact : ReadsExactly decode encode Genuine) (what : Encoded) :
    ReadsExactly (fun text => what.readHex text >>= decode) (fun a => Hex.encode (encode a))
      Genuine := by
  refine of_accepts ?_ fun text => .bind (.readHex what text) exact.only_refuses
  intro text a
  rw [what.readHex_bind_eq_ok]
  constructor
  · rintro ⟨bytes, decoded, rfl⟩
    obtain ⟨genuine, rfl⟩ := (exact.accepts bytes a).mp decoded
    exact ⟨genuine, rfl⟩
  · rintro ⟨genuine, rfl⟩
    exact ⟨encode a, (exact.accepts _ a).mpr ⟨genuine, rfl⟩, rfl⟩

end ReadsExactly

namespace ScalarField

theorem ofModulus_eq_ok {modulus : Nat} {field : ScalarField} :
    ofModulus modulus = .ok field ↔ field.modulus = modulus := by
  constructor
  · intro made
    unfold ofModulus at made
    split at made
    · cases made
      rfl
    · cases made
  · rintro rfl
    rw [ofModulus, dif_pos field.one_lt]

theorem decode_exact (field : ScalarField) :
    ReadsExactly field.decode field.encode field.Reduced := by
  refine .of_accepts ?_ (.scalarBytes field)
  intro bytes a
  constructor
  · intro decoded
    obtain ⟨reduced, written⟩ := field.decode_eq_ok decoded
    exact ⟨reduced, written.symm⟩
  · rintro ⟨reduced, rfl⟩
    exact field.decode_encode reduced

theorem ofHex_exact (field : ScalarField) : ReadsExactly field.ofHex field.toHex field.Reduced :=
  field.decode_exact.text .scalar

end ScalarField

namespace GroupOps.Canonical

variable {Element : Type} {group : GroupOps Element}

theorem decode_exact (canonical : group.Canonical)
    (only : ∀ bytes, Encoded.Refuses (group.decode bytes)) :
    ReadsExactly group.decode group.encode group.Member := by
  refine .of_accepts ?_ only
  intro bytes a
  constructor
  · intro decoded
    have written := canonical bytes a decoded
    exact ⟨by rwa [Member, written], written.symm⟩
  · rintro ⟨member, rfl⟩
    exact member

theorem ofHex_exact (canonical : group.Canonical)
    (only : ∀ bytes, Encoded.Refuses (group.decode bytes)) :
    ReadsExactly group.ofHex group.toHex group.Member :=
  (canonical.decode_exact only).text .element

end GroupOps.Canonical

/-- Whether a residue of a modulus lies in the subgroup. -/
def Residue.Inside (modulus : Nat) (a : Residue) : Prop :=
  1 ≤ a.value ∧ a.value < modulus ∧ a.value ^ ((modulus - 1) / 2) % modulus = 1

/-- Every modulus above one makes a field, and of its scalars the reduced ones are read, from the
    bytes and the text that they are written as and from nothing else. Of the residues of a modulus
    that is accepted with a generator, those of the subgroup are read in the same way. All other
    bytes and texts are refused as encodings. -/
theorem encodings_are_canonical :
    (∀ modulus, 1 < modulus → ∃ field, ScalarField.ofModulus modulus = .ok field ∧
      ReadsExactly field.decode field.encode (fun a => a.value < modulus) ∧
      ReadsExactly field.ofHex field.toHex (fun a => a.value < modulus)) ∧
    ∀ modulus generator group, ResidueGroup.ofParameters modulus generator = .ok group →
      ReadsExactly group.ops.decode group.ops.encode (Residue.Inside modulus) ∧
      ReadsExactly group.ops.ofHex group.ops.toHex (Residue.Inside modulus) := by
  constructor
  · intro modulus large
    let field : ScalarField := ⟨modulus, large⟩
    exact ⟨field, ScalarField.ofModulus_eq_ok.mpr rfl, field.decode_exact, field.ofHex_exact⟩
  · intro modulus generator group made
    obtain ⟨rfl, -⟩ := ResidueGroup.ofParameters_eq_ok.mp made
    have canonical := group.ops_canonical
    have only := Encoded.Refuses.residue group
    exact ⟨(canonical.decode_exact only).of_iff ResidueGroup.member_iff_power,
      (canonical.ofHex_exact only).of_iff ResidueGroup.member_iff_power⟩

/-- A modulus just too wide for one byte, and a modulus that is no prime. -/
theorem encodings_are_canonical_composite :
    1 < 256 ∧
      (∃ field, ScalarField.ofModulus 256 = .ok field ∧ field.ofHex "00ff" = .ok ⟨255⟩ ∧
        ∀ a : Scalar, a.value < 256 → "ff" ≠ field.toHex a) ∧
      ∃ group, ResidueGroup.ofParameters 9 8 = .ok group ∧ group.ops.ofHex "08" = .ok ⟨8⟩ ∧
        ∀ a, Residue.Inside 9 a → "02" ≠ group.ops.toHex a := by
  have large : 1 < 256 := by decide
  obtain ⟨field, made, -, scalars⟩ := encodings_are_canonical.1 256 large
  cases made
  have accepted : ResidueGroup.ofParameters 9 8 = .ok ⟨9, 8, _, _, _, _, _⟩ := rfl
  obtain ⟨-, residues⟩ := encodings_are_canonical.2 9 8 _ accepted
  have inside : Residue.Inside 9 ⟨8⟩ := ⟨by decide, by decide, rfl⟩
  refine ⟨large, ⟨_, rfl, ?_, ?_⟩, _, accepted, ?_, ?_⟩
  · exact (scalars.accepts _ _).mpr ⟨by decide, rfl⟩
  · exact (scalars.refuses _).mp ⟨_, rfl⟩
  · exact (residues.accepts _ _).mpr ⟨inside, rfl⟩
  · exact (residues.refuses _).mp ⟨_, rfl⟩

end CommitScript

import CommitScript.Proof.Basic
import CommitScript.Proofs.Success

/-! # Layout of a proof's fields

Which fields of a proof hold elements and which hold scalars. Whether fields can be read as a
proof depends on nothing but that each of them decodes as what its place asks for, and there
has to be one field for each place.
-/

namespace CommitScript

open Success

variable {Element : Type}

/-- What the fields of a proof hold, place by place. -/
def ProofKind.layout : ProofKind → List Encoded
  | value => [.element, .scalar, .scalar]
  | same => [.scalar]
  | square => [.element, .element, .scalar, .scalar, .scalar, .scalar]

@[simp]
theorem ProofKind.length_layout (kind : ProofKind) : kind.layout.length = kind.fieldCount := by
  cases kind <;> rfl

/-- Whether a text can be read as what it is meant to hold. -/
def Encoded.Decodes (key : CommitmentKey Element) : Encoded → String → Prop
  | .scalar, text => ∃ a, key.field.ofHex text = .ok a
  | .element, text => ∃ a, key.group.ofHex text = .ok a

variable {key : CommitmentKey Element}

theorem ValueProof.exists_ofFields {fields : List String} :
    (∃ proof, ofFields key fields = .ok proof) ↔
      List.Forall₂ (Encoded.Decodes key) ProofKind.value.layout fields := by
  constructor
  · rintro ⟨proof, h⟩
    unfold ofFields at h
    split at h
    · simp only [mapError_eq_ok, except_bind_eq_ok, except_pure_eq_ok] at h
      obtain ⟨u, hu, c, hc, z, hz, -⟩ := h
      exact .cons ⟨u, hu⟩ (.cons ⟨c, hc⟩ (.cons ⟨z, hz⟩ .nil))
    · cases h
  · intro decodes
    rcases decodes with _ | ⟨⟨u, hu⟩, _ | ⟨⟨c, hc⟩, _ | ⟨⟨z, hz⟩, _ | _⟩⟩⟩
    exact ⟨⟨u, c, z⟩, by
      simp only [ofFields, mapError_eq_ok, except_bind_eq_ok, except_pure_eq_ok]
      exact ⟨u, hu, c, hc, z, hz, rfl⟩⟩

theorem SameProof.exists_ofFields {fields : List String} :
    (∃ proof, ofFields key fields = .ok proof) ↔
      List.Forall₂ (Encoded.Decodes key) ProofKind.same.layout fields := by
  constructor
  · rintro ⟨proof, h⟩
    unfold ofFields at h
    split at h
    · simp only [mapError_eq_ok, except_bind_eq_ok, except_pure_eq_ok] at h
      obtain ⟨d, hd, -⟩ := h
      exact .cons ⟨d, hd⟩ .nil
    · cases h
  · intro decodes
    rcases decodes with _ | ⟨⟨d, hd⟩, _ | _⟩
    exact ⟨⟨d⟩, by
      simp only [ofFields, mapError_eq_ok, except_bind_eq_ok, except_pure_eq_ok]
      exact ⟨d, hd, rfl⟩⟩

theorem SquareProof.exists_ofFields {fields : List String} :
    (∃ proof, ofFields key fields = .ok proof) ↔
      List.Forall₂ (Encoded.Decodes key) ProofKind.square.layout fields := by
  constructor
  · rintro ⟨proof, h⟩
    unfold ofFields at h
    split at h
    · simp only [mapError_eq_ok, except_bind_eq_ok, except_pure_eq_ok] at h
      obtain ⟨c3, hc3, c4, hc4, k, hk, z1, hz1, z2, hz2, z3, hz3, -⟩ := h
      exact .cons ⟨c3, hc3⟩ (.cons ⟨c4, hc4⟩ (.cons ⟨k, hk⟩ (.cons ⟨z1, hz1⟩ (.cons ⟨z2, hz2⟩
        (.cons ⟨z3, hz3⟩ .nil)))))
    · cases h
  · intro decodes
    rcases decodes with _ | ⟨⟨c3, hc3⟩, _ | ⟨⟨c4, hc4⟩, _ | ⟨⟨k, hk⟩, _ | ⟨⟨z1, hz1⟩,
      _ | ⟨⟨z2, hz2⟩, _ | ⟨⟨z3, hz3⟩, _ | _⟩⟩⟩⟩⟩⟩
    exact ⟨⟨c3, c4, k, z1, z2, z3⟩, by
      simp only [ofFields, mapError_eq_ok, except_bind_eq_ok, except_pure_eq_ok]
      exact ⟨c3, hc3, c4, hc4, k, hk, z1, hz1, z2, hz2, z3, hz3, rfl⟩⟩

namespace Proof

/-- Fields can be read as a proof of a kind exactly when each place of its layout decodes. -/
theorem exists_ofFields {kind : ProofKind} {fields : List String} :
    (∃ proof, ofFields key kind fields = .ok proof) ↔
      List.Forall₂ (Encoded.Decodes key) kind.layout fields := by
  cases kind with
  | value => exact exists_map_eq_ok.trans ValueProof.exists_ofFields
  | same => exact exists_map_eq_ok.trans SameProof.exists_ofFields
  | square => exact exists_map_eq_ok.trans SquareProof.exists_ofFields

theorem length_of_ofFields {kind : ProofKind} {fields : List String} {proof : Proof Element}
    (h : ofFields key kind fields = .ok proof) : fields.length = kind.fieldCount := by
  rw [← kind.length_layout]
  exact (exists_ofFields.mp ⟨proof, h⟩).length_eq.symm

end Proof

end CommitScript

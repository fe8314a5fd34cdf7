import CommitScript.Proofs.ProofFields
import CommitScript.Proofs.ResidueKeys

/-! # Proofs and their fields

A proof has one spelling. Where a group reads exactly the texts that it writes, the fields that
are read as a proof of a kind are exactly what the proofs of that kind are written in, so reading
and writing are inverse bijections. Everything else is refused, and the fault says no more than
that the number of fields is wrong or that some field encodes nothing.
-/

namespace CommitScript

open Success

variable {Element : Type}

/-- Whether a computation fails by refusing an encoding, if it fails. -/
def Encoded.Refuses {α : Type} (x : Except AlgebraError α) : Prop :=
  ∀ fault, x = .error fault → ∃ cause, fault = .encoding cause

namespace Encoded.Refuses

variable {α β : Type}

theorem pure (a : α) : Refuses (Pure.pure a) := by
  intro fault h
  cases h

theorem bind {x : Except AlgebraError α} {f : α → Except AlgebraError β} (first : Refuses x)
    (others : ∀ a, Refuses (f a)) : Refuses (x >>= f) := by
  intro fault h
  rcases except_bind_eq_error.mp h with fails | ⟨a, -, fails⟩
  · exact first fault fails
  · exact others a fault fails

theorem readHex (what : Encoded) (text : String) : Refuses (what.readHex text) := by
  intro fault h
  unfold Encoded.readHex at h
  split at h
  · cases h
    exact ⟨_, rfl⟩
  · split at h
    · cases h
    · cases h
      exact ⟨_, rfl⟩

theorem scalarBytes (field : ScalarField) (bytes : Bytes) : Refuses (field.decode bytes) := by
  intro fault h
  unfold ScalarField.decode at h
  split at h
  · cases h
    exact ⟨_, rfl⟩
  · split at h
    · cases h
    · cases h
      exact ⟨_, rfl⟩

theorem scalar (field : ScalarField) (text : String) : Refuses (field.ofHex text) :=
  bind (readHex _ text) (scalarBytes field)

theorem element {group : GroupOps Element} (refuses : ∀ bytes, Refuses (group.decode bytes))
    (text : String) : Refuses (group.ofHex text) :=
  bind (readHex _ text) refuses

theorem residue (group : ResidueGroup) (bytes : Bytes) : Refuses (group.ops.decode bytes) := by
  intro fault h
  simp only [ResidueGroup.ops, ResidueGroup.decode] at h
  split at h
  · cases h
    exact ⟨_, rfl⟩
  · split at h
    · cases h
      exact ⟨_, rfl⟩
    · split at h
      · cases h
      · cases h
        exact ⟨_, rfl⟩

theorem ristretto (bytes : Bytes) : Refuses (Ristretto.ops.decode bytes) := by
  intro fault h
  simp only [Ristretto.ops, Ristretto.decode] at h
  split at h
  · cases h
    exact ⟨_, rfl⟩
  · split at h
    · cases h
    · cases h
      exact ⟨_, rfl⟩

end Encoded.Refuses

namespace GroupOps

variable {group : GroupOps Element} {Genuine : Element → Prop}

theorem canonical_of_codec
    (codec : ∀ text a, group.ofHex text = .ok a ↔ Genuine a ∧ text = group.toHex a) :
    group.Canonical := by
  intro bytes a decoded
  have read : group.ofHex (Hex.encode bytes) = .ok a :=
    except_bind_eq_ok.mpr ⟨bytes, (Encoded.readHex_eq_ok _).mpr rfl, decoded⟩
  have written := congrArg Hex.decode ((codec _ _).mp read).2
  rw [toHex, Hex.decode_encode, Hex.decode_encode] at written
  exact (Except.ok.inj written).symm

/-- There is no choice in which elements are genuine. -/
theorem genuine_iff_member
    (codec : ∀ text a, group.ofHex text = .ok a ↔ Genuine a ∧ text = group.toHex a)
    {a : Element} : Genuine a ↔ group.Member a := by
  have read := (codec (group.toHex a) a).symm.trans (canonical_of_codec codec).ofHex_eq_ok
  simpa only [and_true] using read

end GroupOps

namespace Proof

/-- The elements in a proof. -/
def elements : Proof Element → List Element
  | value proof => [proof.nonceCommitment]
  | same _ => []
  | square proof => [proof.sourceCommitment, proof.squareCommitment]

/-- The scalars in a proof. -/
def scalars : Proof Element → List Scalar
  | value proof => [proof.challenge, proof.response]
  | same proof => [proof.difference]
  | square proof =>
      [proof.challenge, proof.secretResponse, proof.sourceResponse, proof.squareResponse]

/-- Whether a proof is a well-formed one of a kind. -/
structure WellFormed (key : CommitmentKey Element) (Genuine : Element → Prop) (kind : ProofKind)
    (proof : Proof Element) : Prop where
  of_kind : proof.kind = kind
  scalars : ∀ a ∈ proof.scalars, key.field.Reduced a
  elements : ∀ a ∈ proof.elements, Genuine a

variable {key : CommitmentKey Element}

theorem wellFormed_value {proof : ValueProof Element} :
    WellFormed key key.group.Member .value (value proof) ↔ proof.Valid key := by
  constructor
  · intro ⟨_, reduced, members⟩
    simp only [scalars, elements, List.forall_mem_cons, List.not_mem_nil,
      IsEmpty.forall_iff, implies_true, and_true]
      at reduced members
    exact ⟨members, reduced.1, reduced.2⟩
  · intro valid
    refine ⟨rfl, ?_, List.forall_mem_singleton.mpr valid.nonceCommitment⟩
    simp only [scalars, List.forall_mem_cons, List.not_mem_nil,
      IsEmpty.forall_iff, implies_true, and_true]
    exact ⟨valid.challenge, valid.response⟩

theorem wellFormed_same {proof : SameProof} :
    WellFormed key key.group.Member .same (same proof) ↔ proof.Valid key := by
  constructor
  · intro wellFormed
    exact wellFormed.scalars _ List.mem_cons_self
  · intro valid
    exact ⟨rfl, List.forall_mem_singleton.mpr valid, List.forall_mem_nil _⟩

theorem wellFormed_square {proof : SquareProof Element} :
    WellFormed key key.group.Member .square (square proof) ↔ proof.Valid key := by
  constructor
  · intro ⟨_, reduced, members⟩
    simp only [scalars, elements, List.forall_mem_cons, List.not_mem_nil,
      IsEmpty.forall_iff, implies_true, and_true]
      at reduced members
    obtain ⟨challenge, ofSecret, ofSource, ofSquare⟩ := reduced
    exact ⟨members.1, members.2, challenge, ofSecret, ofSource, ofSquare⟩
  · intro ⟨memberSource, memberSquare, challenge, ofSecret, ofSource, ofSquare⟩
    refine ⟨rfl, ?_, ?_⟩
    · simp only [scalars, List.forall_mem_cons, List.not_mem_nil,
      IsEmpty.forall_iff, implies_true, and_true]
      exact ⟨challenge, ofSecret, ofSource, ofSquare⟩
    · simp only [elements, List.forall_mem_cons, List.not_mem_nil,
      IsEmpty.forall_iff, implies_true, and_true]
      exact ⟨memberSource, memberSquare⟩

/-- Fields are read as a proof exactly when the proof is a well-formed one of the kind that was
    asked for, and is written in these fields. -/
theorem ofFields_eq_ok (canonical : key.group.Canonical) {kind : ProofKind}
    {fields : List String} {proof : Proof Element} :
    ofFields key kind fields = .ok proof ↔
      proof.WellFormed key key.group.Member kind ∧ fields = proof.toFields key := by
  constructor
  · intro h
    cases kind with
    | value =>
        obtain ⟨proof, read, rfl⟩ := except_map_eq_ok.mp h
        obtain ⟨valid, written⟩ := (ValueProof.ofFields_eq_ok canonical).mp read
        exact ⟨wellFormed_value.mpr valid, written⟩
    | same =>
        obtain ⟨proof, read, rfl⟩ := except_map_eq_ok.mp h
        obtain ⟨valid, written⟩ := SameProof.ofFields_eq_ok.mp read
        exact ⟨wellFormed_same.mpr valid, written⟩
    | square =>
        obtain ⟨proof, read, rfl⟩ := except_map_eq_ok.mp h
        obtain ⟨valid, written⟩ := (SquareProof.ofFields_eq_ok canonical).mp read
        exact ⟨wellFormed_square.mpr valid, written⟩
  · rintro ⟨wellFormed, written⟩
    obtain rfl := wellFormed.of_kind
    cases proof with
    | value proof =>
        have valid := wellFormed_value.mp wellFormed
        exact except_map_eq_ok.mpr
          ⟨proof, (ValueProof.ofFields_eq_ok canonical).mpr ⟨valid, written⟩, rfl⟩
    | same proof =>
        have valid := wellFormed_same.mp wellFormed
        exact except_map_eq_ok.mpr ⟨proof, SameProof.ofFields_eq_ok.mpr ⟨valid, written⟩, rfl⟩
    | square proof =>
        have valid := wellFormed_square.mp wellFormed
        exact except_map_eq_ok.mpr
          ⟨proof, (SquareProof.ofFields_eq_ok canonical).mpr ⟨valid, written⟩, rfl⟩

/-- A wrong number of fields is refused before any field is looked at. -/
theorem ofFields_of_length {kind : ProofKind} {fields : List String}
    (h : fields.length ≠ kind.fieldCount) :
    ofFields key kind fields = .error (.fieldCount kind fields.length) := by
  cases kind with
  | value =>
      refine except_map_eq_error.mpr ?_
      unfold ValueProof.ofFields
      split
      · exact absurd rfl h
      · rfl
  | same =>
      refine except_map_eq_error.mpr ?_
      unfold SameProof.ofFields
      split
      · exact absurd rfl h
      · rfl
  | square =>
      refine except_map_eq_error.mpr ?_
      unfold SquareProof.ofFields
      split
      · exact absurd rfl h
      · rfl

/-- Of the right number of fields, one that encodes nothing is the only thing to refuse. -/
theorem refused_of_length (refuses : ∀ bytes, Encoded.Refuses (key.group.decode bytes))
    {kind : ProofKind} {fields : List String} {fault : ProofError}
    (length : fields.length = kind.fieldCount) (h : ofFields key kind fields = .error fault) :
    ∃ cause, fault = .algebra (.encoding cause) := by
  have element := Encoded.Refuses.element refuses
  have scalar := Encoded.Refuses.scalar key.field
  have inside {α : Type} {x : Except AlgebraError α} (only : Encoded.Refuses x)
      (fails : x.mapError ProofError.algebra = .error fault) :
      ∃ cause, fault = .algebra (.encoding cause) := by
    obtain ⟨cause, failed, rfl⟩ := mapError_eq_error.mp fails
    obtain ⟨reason, rfl⟩ := only cause failed
    exact ⟨reason, rfl⟩
  cases kind with
  | value =>
      have fails := except_map_eq_error.mp h
      obtain ⟨u, c, z, rfl⟩ := List.length_eq_three.mp length
      exact inside (.bind (element u) fun _ => .bind (scalar c) fun _ =>
        .bind (scalar z) fun _ => .pure _) fails
  | same =>
      have fails := except_map_eq_error.mp h
      obtain ⟨d, rfl⟩ := List.length_eq_one_iff.mp length
      exact inside (.bind (scalar d) fun _ => .pure _) fails
  | square =>
      have fails := except_map_eq_error.mp h
      have length : fields.length = 6 := length
      match fields, length with
      | [c3, c4, k, z1, z2, z3], _ =>
          exact inside (.bind (element c3) fun _ => .bind (element c4) fun _ =>
            .bind (scalar k) fun _ => .bind (scalar z1) fun _ => .bind (scalar z2) fun _ =>
            .bind (scalar z3) fun _ => .pure _) fails

/-- The fields of a proof are its only spelling, for a group that reads exactly the texts of its
    genuine elements. Fields are read as a proof of a kind exactly when they are those of a
    well-formed one. Other fields are refused: their number is wrong, or else one of them encodes
    nothing, provided that a group refuses bytes for no other reason, as both groups do. So
    writing is a bijection from the well-formed proofs of a kind to the fields that are read. -/
theorem codec_is_exact {Genuine : Element → Prop}
    (codec : ∀ text a, key.group.ofHex text = .ok a ↔ Genuine a ∧ text = key.group.toHex a)
    (kind : ProofKind) :
    (∀ fields proof, ofFields key kind fields = .ok proof ↔
      proof.WellFormed key Genuine kind ∧ fields = proof.toFields key) ∧
    (∀ fields, fields.length ≠ kind.fieldCount →
      ofFields key kind fields = .error (.fieldCount kind fields.length)) ∧
    ((∀ bytes, Encoded.Refuses (key.group.decode bytes)) → ∀ fields fault,
      fields.length = kind.fieldCount → ofFields key kind fields = .error fault →
      ∃ cause, fault = .algebra (.encoding cause)) ∧
    (∀ (group : ResidueGroup) (bytes : Bytes), Encoded.Refuses (group.ops.decode bytes)) ∧
    (∀ bytes, Encoded.Refuses (Ristretto.ops.decode bytes)) ∧
    Set.BijOn (toFields key) {proof | proof.WellFormed key Genuine kind}
      {fields | ∃ proof, ofFields key kind fields = .ok proof} := by
  have genuine : Genuine = key.group.Member :=
    funext fun a => propext (GroupOps.genuine_iff_member codec)
  have canonical := GroupOps.canonical_of_codec codec
  subst genuine
  refine ⟨fun _ _ => ofFields_eq_ok canonical, fun _ => ofFields_of_length,
    fun refuses _ _ => refused_of_length refuses, Encoded.Refuses.residue,
    Encoded.Refuses.ristretto, ?_, ?_, ?_⟩
  · intro proof wellFormed
    exact ⟨proof, (ofFields_eq_ok canonical).mpr ⟨wellFormed, rfl⟩⟩
  · intro proof wellFormed other wellFormed' same
    have read := (ofFields_eq_ok canonical).mpr ⟨wellFormed, rfl⟩
    have read' := (ofFields_eq_ok canonical).mpr ⟨wellFormed', same⟩
    exact Except.ok.inj (read.symm.trans read')
  · rintro fields ⟨proof, read⟩
    obtain ⟨wellFormed, written⟩ := (ofFields_eq_ok canonical).mp read
    exact ⟨proof, wellFormed, written.symm⟩

theorem codec_is_exact_small :
    ofFields (ResidueGroup.small.keyOf ⟨3⟩) .value ["03", "0a", "00"] =
        .ok (.value ⟨⟨3⟩, ⟨10⟩, ⟨0⟩⟩) ∧
      ofFields (ResidueGroup.small.keyOf ⟨3⟩) .value ["03", "0a"] = .error (.fieldCount .value 2) ∧
      ∃ fault, ofFields (ResidueGroup.small.keyOf ⟨3⟩) .value ["03", "0A", "00"] = .error fault ∧
        ∃ cause, fault = .algebra (.encoding cause) := by
  have codec : ∀ text a, (ResidueGroup.small.keyOf ⟨3⟩).group.ofHex text = .ok a ↔
      ResidueGroup.small.ops.Member a ∧ text = ResidueGroup.small.ops.toHex a :=
    fun _ _ => (ResidueGroup.ops_canonical ResidueGroup.small).ofHex_eq_ok
  obtain ⟨reads, counts, refuses, residues, -, -⟩ := codec_is_exact codec .value
  refine ⟨(reads _ _).mpr ⟨⟨rfl, ?_, ?_⟩, rfl⟩, counts _ (by decide), ?_⟩
  · have ten : 10 < 11 := by decide
    have zero : 0 < 11 := by decide
    exact List.forall_mem_cons.mpr ⟨ten, List.forall_mem_singleton.mpr zero⟩
  · exact List.forall_mem_singleton.mpr rfl
  · have fails : ofFields (ResidueGroup.small.keyOf ⟨3⟩) .value ["03", "0A", "00"] = .error _ := rfl
    exact ⟨_, fails, refuses (residues _) _ _ rfl fails⟩

end Proof

end CommitScript

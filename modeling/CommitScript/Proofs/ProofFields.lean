import CommitScript.Proof.Basic
import CommitScript.Proofs.CanonicalText

/-! # Fields of proofs

Reading the fields of a proof accepts exactly what writing a well-formed proof gives. A proof
is well-formed when its elements are genuine and its scalars are reduced; of such a proof
every field is determined by its part and determines it.
-/

namespace CommitScript

open Success

variable {Element : Type} {key : CommitmentKey Element}

theorem ScalarField.toHex_inj {field : ScalarField} {a b : Scalar} (ha : field.Reduced a)
    (hb : field.Reduced b) : field.toHex a = field.toHex b ↔ a = b := by
  constructor
  · intro h
    have read : field.ofHex (field.toHex a) = .ok a := ScalarField.ofHex_eq_ok.mpr ⟨ha, rfl⟩
    rw [h, ScalarField.ofHex_eq_ok.mpr ⟨hb, rfl⟩] at read
    exact (Except.ok.inj read).symm
  · rintro rfl
    rfl

theorem GroupOps.Laws.toHex_inj {group : GroupOps Element} (laws : group.Laws) {a b : Element}
    (ha : group.Member a) (hb : group.Member b) : group.toHex a = group.toHex b ↔ a = b := by
  constructor
  · intro h
    have read : group.ofHex (group.toHex a) = .ok a := laws.ofHex_eq_ok.mpr ⟨ha, rfl⟩
    rw [h, laws.ofHex_eq_ok.mpr ⟨hb, rfl⟩] at read
    exact (Except.ok.inj read).symm
  · rintro rfl
    rfl

/-- Whether the parts of a proof of a public value are what its fields can hold. -/
structure ValueProof.Valid (key : CommitmentKey Element) (proof : ValueProof Element) : Prop where
  nonceCommitment : key.group.Member proof.nonceCommitment
  challenge : key.field.Reduced proof.challenge
  response : key.field.Reduced proof.response

/-- Whether the part of a proof of a shared secret is what its field can hold. -/
def SameProof.Valid (key : CommitmentKey Element) (proof : SameProof) : Prop :=
  key.field.Reduced proof.difference

/-- Whether the parts of a proof of a square are what its fields can hold. -/
structure SquareProof.Valid (key : CommitmentKey Element) (proof : SquareProof Element) :
    Prop where
  sourceCommitment : key.group.Member proof.sourceCommitment
  squareCommitment : key.group.Member proof.squareCommitment
  challenge : key.field.Reduced proof.challenge
  secretResponse : key.field.Reduced proof.secretResponse
  sourceResponse : key.field.Reduced proof.sourceResponse
  squareResponse : key.field.Reduced proof.squareResponse

theorem ValueProof.ofFields_eq_ok (canonical : key.group.Canonical) {fields : List String}
    {proof : ValueProof Element} :
    ofFields key fields = .ok proof ↔ proof.Valid key ∧ fields = proof.toFields key := by
  constructor
  · intro h
    unfold ofFields at h
    split at h
    · simp only [mapError_eq_ok, except_bind_eq_ok, except_pure_eq_ok] at h
      obtain ⟨u, hu, c, hc, z, hz, rfl⟩ := h
      obtain ⟨memberU, rfl⟩ := canonical.ofHex_eq_ok.mp hu
      obtain ⟨reducedC, rfl⟩ := ScalarField.ofHex_eq_ok.mp hc
      obtain ⟨reducedZ, rfl⟩ := ScalarField.ofHex_eq_ok.mp hz
      exact ⟨⟨memberU, reducedC, reducedZ⟩, rfl⟩
    · cases h
  · rintro ⟨valid, rfl⟩
    simp only [toFields, ofFields, mapError_eq_ok, except_bind_eq_ok, except_pure_eq_ok]
    exact ⟨_, canonical.ofHex_eq_ok.mpr ⟨valid.nonceCommitment, rfl⟩,
      _, ScalarField.ofHex_eq_ok.mpr ⟨valid.challenge, rfl⟩,
      _, ScalarField.ofHex_eq_ok.mpr ⟨valid.response, rfl⟩, rfl⟩

theorem SameProof.ofFields_eq_ok {fields : List String} {proof : SameProof} :
    ofFields key fields = .ok proof ↔ proof.Valid key ∧ fields = proof.toFields key := by
  constructor
  · intro h
    unfold ofFields at h
    split at h
    · simp only [mapError_eq_ok, except_bind_eq_ok, except_pure_eq_ok] at h
      obtain ⟨d, hd, rfl⟩ := h
      obtain ⟨reduced, rfl⟩ := ScalarField.ofHex_eq_ok.mp hd
      exact ⟨reduced, rfl⟩
    · cases h
  · rintro ⟨valid, rfl⟩
    simp only [toFields, ofFields, mapError_eq_ok, except_bind_eq_ok, except_pure_eq_ok]
    exact ⟨_, ScalarField.ofHex_eq_ok.mpr ⟨valid, rfl⟩, rfl⟩

theorem SquareProof.ofFields_eq_ok (canonical : key.group.Canonical) {fields : List String}
    {proof : SquareProof Element} :
    ofFields key fields = .ok proof ↔ proof.Valid key ∧ fields = proof.toFields key := by
  constructor
  · intro h
    unfold ofFields at h
    split at h
    · simp only [mapError_eq_ok, except_bind_eq_ok, except_pure_eq_ok] at h
      obtain ⟨c3, hc3, c4, hc4, k, hk, z1, hz1, z2, hz2, z3, hz3, rfl⟩ := h
      obtain ⟨member3, rfl⟩ := canonical.ofHex_eq_ok.mp hc3
      obtain ⟨member4, rfl⟩ := canonical.ofHex_eq_ok.mp hc4
      obtain ⟨reducedK, rfl⟩ := ScalarField.ofHex_eq_ok.mp hk
      obtain ⟨reduced1, rfl⟩ := ScalarField.ofHex_eq_ok.mp hz1
      obtain ⟨reduced2, rfl⟩ := ScalarField.ofHex_eq_ok.mp hz2
      obtain ⟨reduced3, rfl⟩ := ScalarField.ofHex_eq_ok.mp hz3
      exact ⟨⟨member3, member4, reducedK, reduced1, reduced2, reduced3⟩, rfl⟩
    · cases h
  · rintro ⟨valid, rfl⟩
    simp only [toFields, ofFields, mapError_eq_ok, except_bind_eq_ok, except_pure_eq_ok]
    exact ⟨_, canonical.ofHex_eq_ok.mpr ⟨valid.sourceCommitment, rfl⟩,
      _, canonical.ofHex_eq_ok.mpr ⟨valid.squareCommitment, rfl⟩,
      _, ScalarField.ofHex_eq_ok.mpr ⟨valid.challenge, rfl⟩,
      _, ScalarField.ofHex_eq_ok.mpr ⟨valid.secretResponse, rfl⟩,
      _, ScalarField.ofHex_eq_ok.mpr ⟨valid.sourceResponse, rfl⟩,
      _, ScalarField.ofHex_eq_ok.mpr ⟨valid.squareResponse, rfl⟩, rfl⟩

/-- A proof of a public value with one part exchanged. -/
inductive ValueProof.Exchanged (proof : ValueProof Element) : ValueProof Element → Prop
  | nonceCommitment (u : Element) : Exchanged proof { proof with nonceCommitment := u }
  | challenge (c : Scalar) : Exchanged proof { proof with challenge := c }
  | response (z : Scalar) : Exchanged proof { proof with response := z }

/-- A proof of a square with one part exchanged. -/
inductive SquareProof.Exchanged (proof : SquareProof Element) : SquareProof Element → Prop
  | sourceCommitment (c3 : Element) : Exchanged proof { proof with sourceCommitment := c3 }
  | squareCommitment (c4 : Element) : Exchanged proof { proof with squareCommitment := c4 }
  | challenge (k : Scalar) : Exchanged proof { proof with challenge := k }
  | secretResponse (z1 : Scalar) : Exchanged proof { proof with secretResponse := z1 }
  | sourceResponse (z2 : Scalar) : Exchanged proof { proof with sourceResponse := z2 }
  | squareResponse (z3 : Scalar) : Exchanged proof { proof with squareResponse := z3 }

/-- Where one field has been exchanged, one part has been, since every field has one text. -/
theorem ValueProof.exchanged_of_toFields (laws : key.group.Laws) {proof other : ValueProof Element}
    (valid : proof.Valid key) (validOther : other.Valid key) {place : Nat} {text : String}
    (fields : other.toFields key = (proof.toFields key).set place text) :
    proof.Exchanged other := by
  obtain ⟨u, c, z⟩ := proof
  obtain ⟨u', c', z'⟩ := other
  have nonces := laws.toHex_inj validOther.nonceCommitment valid.nonceCommitment
  have challenges := ScalarField.toHex_inj validOther.challenge valid.challenge
  have responses := ScalarField.toHex_inj validOther.response valid.response
  simp only [toFields] at fields nonces challenges responses
  match place with
  | 0 =>
      simp only [List.set, List.cons.injEq, challenges, responses, and_true] at fields
      obtain ⟨-, rfl, rfl⟩ := fields
      exact .nonceCommitment u'
  | 1 =>
      simp only [List.set, List.cons.injEq, nonces, responses, and_true] at fields
      obtain ⟨rfl, -, rfl⟩ := fields
      exact .challenge c'
  | 2 =>
      simp only [List.set, List.cons.injEq, nonces, challenges, and_true] at fields
      obtain ⟨rfl, rfl, -⟩ := fields
      exact .response z'
  | place + 3 =>
      simp only [List.set, List.cons.injEq, nonces, challenges, responses, and_true] at fields
      obtain ⟨rfl, rfl, rfl⟩ := fields
      exact .response z'

theorem SquareProof.exchanged_of_toFields (laws : key.group.Laws)
    {proof other : SquareProof Element} (valid : proof.Valid key) (validOther : other.Valid key)
    {place : Nat} {text : String}
    (fields : other.toFields key = (proof.toFields key).set place text) :
    proof.Exchanged other := by
  obtain ⟨c3, c4, k, z1, z2, z3⟩ := proof
  obtain ⟨c3', c4', k', z1', z2', z3'⟩ := other
  have same3 := laws.toHex_inj validOther.sourceCommitment valid.sourceCommitment
  have same4 := laws.toHex_inj validOther.squareCommitment valid.squareCommitment
  have sameK := ScalarField.toHex_inj validOther.challenge valid.challenge
  have sameZ1 := ScalarField.toHex_inj validOther.secretResponse valid.secretResponse
  have sameZ2 := ScalarField.toHex_inj validOther.sourceResponse valid.sourceResponse
  have sameZ3 := ScalarField.toHex_inj validOther.squareResponse valid.squareResponse
  simp only [toFields] at fields same3 same4 sameK sameZ1 sameZ2 sameZ3
  match place with
  | 0 =>
      simp only [List.set, List.cons.injEq, same4, sameK, sameZ1, sameZ2, sameZ3, and_true]
        at fields
      obtain ⟨-, rfl, rfl, rfl, rfl, rfl⟩ := fields
      exact .sourceCommitment c3'
  | 1 =>
      simp only [List.set, List.cons.injEq, same3, sameK, sameZ1, sameZ2, sameZ3, and_true]
        at fields
      obtain ⟨rfl, -, rfl, rfl, rfl, rfl⟩ := fields
      exact .squareCommitment c4'
  | 2 =>
      simp only [List.set, List.cons.injEq, same3, same4, sameZ1, sameZ2, sameZ3, and_true]
        at fields
      obtain ⟨rfl, rfl, -, rfl, rfl, rfl⟩ := fields
      exact .challenge k'
  | 3 =>
      simp only [List.set, List.cons.injEq, same3, same4, sameK, sameZ2, sameZ3, and_true]
        at fields
      obtain ⟨rfl, rfl, rfl, -, rfl, rfl⟩ := fields
      exact .secretResponse z1'
  | 4 =>
      simp only [List.set, List.cons.injEq, same3, same4, sameK, sameZ1, sameZ3, and_true]
        at fields
      obtain ⟨rfl, rfl, rfl, rfl, -, rfl⟩ := fields
      exact .sourceResponse z2'
  | 5 =>
      simp only [List.set, List.cons.injEq, same3, same4, sameK, sameZ1, sameZ2, and_true]
        at fields
      obtain ⟨rfl, rfl, rfl, rfl, rfl, -⟩ := fields
      exact .squareResponse z3'
  | place + 6 =>
      simp only [List.set, List.cons.injEq, same3, same4, sameK, sameZ1, sameZ2, sameZ3,
        and_true] at fields
      obtain ⟨rfl, rfl, rfl, rfl, rfl, rfl⟩ := fields
      exact .squareResponse z3'

end CommitScript

import CommitScript.Proofs.KeyLaws
import CommitScript.Proofs.TableLaws
import CommitScript.Run.Opening

/-! # Weighted sums on both sides

A weighted sum needs its weights resolved and its names bound, and nothing else. The sum that a
verifier forms of commitments is the commitment of the sum that a prover forms of openings, and
where one side fails the other fails alike.
-/

namespace CommitScript

open Success

variable {Element : Type}

/-- Names and weights are resolved exactly when every weight has a scalar and every name is
    bound. -/
theorem exists_resolveTerms {Value : Type} {field : ScalarField} {table : Table Value}
    {terms : List (Weight × String)} :
    (∃ pairs, resolveTerms field table terms = .ok pairs) ↔
      (∀ term ∈ terms, ∃ a, term.1.resolve field = .ok a) ∧
        ∀ term ∈ terms, (table.get? term.2).isSome := by
  have weights : (∃ factors, terms.mapM (fun term : Weight × String =>
      (term.1.resolve field).mapError RunError.algebra) = .ok factors) ↔
      ∀ term ∈ terms, ∃ a, term.1.resolve field = .ok a := by
    simp only [exists_mapM_eq_ok, mapError_eq_ok]
  have names : (∃ values, terms.mapM (fun term : Weight × String => table.find term.2) =
      .ok values) ↔ ∀ term ∈ terms, (table.get? term.2).isSome := by
    simp only [exists_mapM_eq_ok, Table.find_eq_ok, Option.isSome_iff_exists]
  rw [← weights, ← names, resolveTerms]
  simp only [except_bind_eq_ok, except_pure_eq_ok]
  constructor
  · rintro ⟨pairs, factors, resolved, values, found, -⟩
    exact ⟨⟨factors, resolved⟩, ⟨values, found⟩⟩
  · rintro ⟨⟨factors, resolved⟩, ⟨values, found⟩⟩
    exact ⟨_, factors, resolved, values, found, rfl⟩

/-- A sum is resolved exactly to the scalars and the values of its terms, one after the other. -/
theorem resolveTerms_eq_ok {Value : Type} {field : ScalarField} {table : Table Value}
    {terms : List (Weight × String)} {pairs : List (Scalar × Value)} :
    resolveTerms field table terms = .ok pairs ↔
      List.Forall₂ (fun term pair => (term.1.resolve field).toOption = some pair.1 ∧
        table.get? term.2 = some pair.2) terms pairs := by
  simp only [resolveTerms, except_bind_eq_ok, except_pure_eq_ok, mapM_eq_ok, mapError_eq_ok,
    Table.find_eq_ok, toOption_eq_some]
  induction terms generalizing pairs with
  | nil =>
      simp only [List.forall₂_nil_left_iff, exists_eq_left, List.zip_nil_left]
      exact eq_comm
  | cons term terms ih =>
      simp only [List.forall₂_cons_left_iff, ← ih]
      constructor
      · rintro ⟨_, ⟨a, factors, weight, weights, rfl⟩, _, ⟨v, values, found, finds, rfl⟩, rfl⟩
        exact ⟨(a, v), _, ⟨weight, found⟩, ⟨factors, weights, values, finds, rfl⟩, rfl⟩
      · rintro ⟨⟨a, v⟩, _, ⟨weight, found⟩, ⟨factors, weights, values, finds, rfl⟩, rfl⟩
        exact ⟨_, ⟨a, factors, weight, weights, rfl⟩, _, ⟨v, values, found, finds, rfl⟩, rfl⟩

/-- The values in a resolved sum are values of the table. -/
theorem resolveTerms_all {Value : Type} {P : Value → Prop} {field : ScalarField}
    {table : Table Value} {terms : List (Weight × String)} {pairs : List (Scalar × Value)}
    (all : table.All P) (h : resolveTerms field table terms = .ok pairs) :
    ∀ pair ∈ pairs, P pair.2 := by
  simp only [resolveTerms, except_bind_eq_ok, except_pure_eq_ok] at h
  obtain ⟨factors, -, values, found, rfl⟩ := h
  intro pair member
  obtain ⟨term, -, finds⟩ := exists_of_mem_mapM found (List.of_mem_zip member).2
  exact all term.2 pair.2 (Table.find_eq_ok.mp finds)

theorem mapM_find_map {Value Other : Type} (f : Value → Other) (table : Table Value)
    (terms : List (Weight × String)) :
    (terms.mapM fun term => (table.map f).find term.2) =
      (terms.mapM fun term => table.find term.2).map (List.map f) := by
  have each (name : String) : (table.map f).find name = (table.find name).map f := by
    rw [Table.find, Table.find, Table.get?_map]
    cases table.get? name <;> rfl
  simp only [each]
  exact mapM_map f terms

/-- Changing the values of a table changes the values of a sum's terms and nothing else. -/
theorem resolveTerms_map {Value Other : Type} (f : Value → Other) (field : ScalarField)
    (table : Table Value) (terms : List (Weight × String)) :
    resolveTerms field (table.map f) terms =
      (resolveTerms field table terms).map (List.map fun pair => (pair.1, f pair.2)) := by
  rw [resolveTerms, resolveTerms, mapM_find_map]
  cases terms.mapM fun term => (term.1.resolve field).mapError RunError.algebra with
  | error e => rfl
  | ok factors =>
      cases terms.mapM fun term => table.find term.2 with
      | error e => rfl
      | ok values => exact congrArg Except.ok (List.zip_map_right)

namespace CommitmentKey.Lawful

variable {key : CommitmentKey Element}

theorem commitment_member (lawful : key.Lawful) (opening : Opening) :
    key.group.Member (opening.commitment key) :=
  lawful.commit_member _ _

theorem log_commitment (lawful : key.Lawful) (opening : Opening) :
    lawful.log (opening.commitment key) =
      key.field.residue opening.secret +
        key.field.residue opening.blinding * lawful.log key.blindingBase :=
  lawful.log_commit _ _

/-- The commitment of a total to which a multiple of an opening has been added. -/
theorem commitment_add_scale (lawful : key.Lawful) (k : Scalar) (total opening : Opening) :
    key.group.add (total.commitment key) (key.scale k (opening.commitment key)) =
      Opening.commitment key
        { secret := key.field.add total.secret (key.field.mul k opening.secret)
          blinding := key.field.add total.blinding (key.field.mul k opening.blinding) } := by
  have member := lawful.commitment_member opening
  have memberTotal := lawful.commitment_member total
  have memberScaled := lawful.scale_member k member
  rw [← lawful.log_inj (lawful.group.add_member memberTotal memberScaled)
    (lawful.commitment_member _), lawful.log_add memberTotal memberScaled,
    lawful.log_scale k member]
  simp only [log_commitment, ScalarField.residue_add, ScalarField.residue_mul]
  ring

/-- The weighted sum of commitments is the commitment of the weighted sum. -/
theorem sumCommitments_map (lawful : key.Lawful) (pairs : List (Scalar × Opening)) :
    key.sumCommitments (pairs.map fun pair => (pair.1, pair.2.commitment key)) =
      (sumOpenings key.field pairs).commitment key := by
  have step (total : Opening) :
      (pairs.map fun pair => (pair.1, pair.2.commitment key)).foldl
          (fun total term => key.group.add total (key.scale term.1 term.2))
          (total.commitment key) =
        (pairs.foldl (fun total term =>
          { secret := key.field.add total.secret (key.field.mul term.1 term.2.secret)
            blinding := key.field.add total.blinding (key.field.mul term.1 term.2.blinding) })
          total : Opening).commitment key := by
    induction pairs generalizing total with
    | nil => rfl
    | cons pair pairs ih =>
        rw [List.map_cons, List.foldl_cons, List.foldl_cons, lawful.commitment_add_scale]
        exact ih _
  have nothing : Opening.commitment key ⟨key.field.zero, key.field.zero⟩ = key.group.identity := by
    rw [← lawful.log_inj (lawful.commitment_member _) lawful.group.identity_member,
      lawful.log_commitment]
    simp
  rw [CommitmentKey.sumCommitments, ← nothing]
  exact step _

/-- Over a table of commitments a sum is the commitment of the same sum over the table of
    openings, or the same fault. -/
theorem combineCommitments_map (lawful : key.Lawful) (table : Table Opening)
    (terms : List (Weight × String)) :
    combineCommitments key (table.map (Opening.commitment key)) terms =
      (combineOpenings key.field table terms).map (Opening.commitment key) := by
  rw [combineCommitments, combineOpenings, resolveTerms_map]
  cases resolveTerms key.field table terms with
  | error e => rfl
  | ok pairs => exact congrArg Except.ok (lawful.sumCommitments_map pairs)

/-- A sum of genuine commitments is genuine. -/
theorem sumCommitments_member (lawful : key.Lawful) {pairs : List (Scalar × Element)}
    (h : ∀ pair ∈ pairs, key.group.Member pair.2) :
    key.group.Member (key.sumCommitments pairs) := by
  have step {total : Element} (member : key.group.Member total) :
      key.group.Member (pairs.foldl
        (fun total term => key.group.add total (key.scale term.1 term.2)) total) := by
    induction pairs generalizing total with
    | nil => exact member
    | cons pair pairs ih =>
        rw [List.forall_mem_cons] at h
        exact ih h.2 (lawful.group.add_member member (lawful.scale_member pair.1 h.1))
  exact step lawful.group.identity_member

theorem combineCommitments_member (lawful : key.Lawful) {table : Table Element}
    (all : table.All key.group.Member) {terms : List (Weight × String)} {a : Element}
    (h : combineCommitments key table terms = .ok a) : key.group.Member a := by
  obtain ⟨pairs, resolved, rfl⟩ := except_map_eq_ok.mp h
  exact lawful.sumCommitments_member (resolveTerms_all all resolved)

end CommitmentKey.Lawful

end CommitScript

import Mathlib
import CommitScript.Proofs.ResidueKeys
import CommitScript.Proofs.WeightedSums

/-! # Both sides form the same sums

What a weighted sum of openings is, and why there is none. The verifier's sum of commitments is
the commitment of it or fails alike. The terms may come in any order, and two integer weights of
one name may be added.
-/

namespace CommitScript

open Success

variable {Element Value : Type} {field : ScalarField}

/-- The weighted sum of one part of some openings, which is not reduced. -/
def weightedSum (part : Opening → Scalar) (pairs : List (Scalar × Opening)) : Nat :=
  (pairs.map fun pair => pair.1.value * (part pair.2).value).sum

theorem ScalarField.add_reduce_mul (n : Nat) (a b : Scalar) :
    field.add (field.reduce n) (field.mul a b) = field.reduce (n + a.value * b.value) :=
  congrArg Scalar.mk (Nat.add_mod n (a.value * b.value) field.modulus).symm

/-- A sum of openings is made of the weighted sums of their parts. -/
theorem sumOpenings_eq (pairs : List (Scalar × Opening)) :
    sumOpenings field pairs =
      { secret := field.reduce (weightedSum Opening.secret pairs)
        blinding := field.reduce (weightedSum Opening.blinding pairs) } := by
  have step (m n : Nat) :
      (pairs.foldl (fun total term =>
        { secret := field.add total.secret (field.mul term.1 term.2.secret)
          blinding := field.add total.blinding (field.mul term.1 term.2.blinding) })
        { secret := field.reduce m, blinding := field.reduce n } : Opening) =
      { secret := field.reduce (m + weightedSum Opening.secret pairs)
        blinding := field.reduce (n + weightedSum Opening.blinding pairs) } := by
    induction pairs generalizing m n with
    | nil => rfl
    | cons pair pairs ih =>
        rw [List.foldl_cons, ScalarField.add_reduce_mul, ScalarField.add_reduce_mul, ih]
        simp [weightedSum, Nat.add_assoc]
  have nothing : field.reduce 0 = field.zero := congrArg Scalar.mk (Nat.zero_mod _)
  have whole := step 0 0
  rw [nothing, Nat.zero_add, Nat.zero_add] at whole
  exact whole

/-- Why a sum cannot be formed: for the first weight that stands for no scalar or, when there is
    none, for the first name that is not bound. -/
inductive SumFault (field : ScalarField) (table : Table Value) :
    List (Weight × String) → RunError → Prop
  | weight {before after : List (Weight × String)} {weight name cause} :
      (∀ term ∈ before, ∃ a, term.1.resolve field = .ok a) → weight.resolve field = .error cause →
      SumFault field table (before ++ (weight, name) :: after) (.algebra cause)
  | name {before after : List (Weight × String)} {weight name} :
      (∀ term ∈ before ++ (weight, name) :: after, ∃ a, term.1.resolve field = .ok a) →
      (∀ term ∈ before, ∃ value, table.get? term.2 = some value) → table.get? name = none →
      SumFault field table (before ++ (weight, name) :: after) (.undefined name)

theorem resolveTerms_eq_error {table : Table Value} {terms : List (Weight × String)}
    {fault : RunError} :
    resolveTerms field table terms = .error fault ↔ SumFault field table terms fault := by
  have weights : (∃ factors, terms.mapM (fun term : Weight × String =>
      (term.1.resolve field).mapError RunError.algebra) = .ok factors) ↔
      ∀ term ∈ terms, ∃ a, term.1.resolve field = .ok a := by
    simp only [exists_mapM_eq_ok, mapError_eq_ok]
  simp only [resolveTerms, except_bind_eq_error, mapM_eq_error_iff, mapError_eq_error,
    mapError_eq_ok, Table.find_eq_ok, Table.find_eq_error]
  constructor
  · rintro (⟨before, term, after, rfl, resolve, cause, fails, rfl⟩ |
      ⟨factors, resolved, ⟨before, term, after, rfl, found, unbound, rfl⟩ | ⟨_, _, ends⟩⟩)
    · exact .weight resolve fails
    · exact .name (weights.mp ⟨factors, resolved⟩) found unbound
    · cases ends
  · intro h
    cases h with
    | weight resolve fails => exact .inl ⟨_, _, _, rfl, resolve, _, fails, rfl⟩
    | name resolve found unbound =>
        obtain ⟨factors, resolved⟩ := weights.mpr resolve
        exact .inr ⟨factors, resolved, .inl ⟨_, _, _, rfl, found, unbound, rfl⟩⟩

/-- A sum over a table depends on nothing but what the names stand for. -/
theorem resolveTerms_congr {table table' : Table Value}
    (same : ∀ name, table'.get? name = table.get? name) (terms : List (Weight × String)) :
    resolveTerms field table' terms = resolveTerms field table terms := by
  have find (name : String) : table'.find name = table.find name := by
    rw [Table.find, Table.find, same]
  simp only [resolveTerms, find]

/-- In another order the terms of a sum are resolved to the same values in another order. -/
theorem resolveTerms_perm {table : Table Value} {terms terms' : List (Weight × String)}
    {pairs : List (Scalar × Value)} (perm : terms'.Perm terms)
    (h : resolveTerms field table terms = .ok pairs) :
    ∃ pairs', resolveTerms field table terms' = .ok pairs' ∧ pairs'.Perm pairs := by
  rw [resolveTerms_eq_ok] at h
  obtain ⟨pairs', resolved, perm'⟩ := List.perm_comp_forall₂ perm h
  exact ⟨pairs', resolveTerms_eq_ok.mpr resolved, perm'⟩

theorem weightedSum_perm (part : Opening → Scalar) {pairs pairs' : List (Scalar × Opening)}
    (perm : pairs'.Perm pairs) : weightedSum part pairs' = weightedSum part pairs :=
  (perm.map _).sum_eq

/-- The order of the terms makes no difference to a sum. -/
theorem combineOpenings_perm {table : Table Opening} {terms terms' : List (Weight × String)}
    (perm : terms'.Perm terms) {opening : Opening}
    (h : combineOpenings field table terms = .ok opening) :
    combineOpenings field table terms' = .ok opening := by
  obtain ⟨pairs, resolved, rfl⟩ := except_map_eq_ok.mp h
  obtain ⟨pairs', resolved', perm'⟩ := resolveTerms_perm perm resolved
  refine except_map_eq_ok.mpr ⟨pairs', resolved', ?_⟩
  rw [sumOpenings_eq, sumOpenings_eq, weightedSum_perm _ perm', weightedSum_perm _ perm']

/-- The scalar of a term's weight. -/
def resolveWeight (field : ScalarField) (term : Weight × String) : Except RunError Scalar :=
  (term.1.resolve field).mapError .algebra

/-- The scalar of a term's weight with what its name stands for. -/
def resolveTerm (field : ScalarField) (table : Table Value) (term : Weight × String) :
    Except RunError (Scalar × Value) := do
  let factor ← resolveWeight field term
  let value ← table.find term.2
  return (factor, value)

/-- Once every weight is resolved, the terms are resolved one by one. -/
theorem resolveTerms_eq_bind (table : Table Value) (terms : List (Weight × String)) :
    resolveTerms field table terms =
      terms.mapM (resolveWeight field) >>= fun _ => terms.mapM (resolveTerm field table) := by
  change terms.mapM (resolveWeight field) >>= (fun factors =>
    (terms.mapM fun term => table.find term.2) >>= fun values => .ok (factors.zip values)) = _
  cases weights : terms.mapM (resolveWeight field) with
  | error fault => rfl
  | ok factors =>
      change ((terms.mapM fun term => table.find term.2) >>=
          fun values => .ok (factors.zip values)) =
        terms.mapM (resolveTerm field table)
      rw [mapM_eq_ok] at weights
      induction weights with
      | nil => rfl
      | @cons term factor terms factors first others ih =>
          rw [List.mapM_cons, List.mapM_cons, ← ih, resolveTerm, first]
          cases table.find term.2 with
          | error fault => rfl
          | ok value =>
              cases terms.mapM fun term => table.find term.2 with
              | error fault => rfl
              | ok values => rfl

/-- Integer weights may be added in a weighted sum. -/
theorem reduce_weightedSum_merge (part : Opening → Scalar) (opening : Opening) (w w' : Int)
    (pairs pairs' pairs'' : List (Scalar × Opening)) :
    field.reduce (weightedSum part
        (pairs ++ (field.ofInt w, opening) :: (pairs' ++ (field.ofInt w', opening) :: pairs''))) =
      field.reduce (weightedSum part
        (pairs ++ (field.ofInt (w + w'), opening) :: (pairs' ++ pairs''))) := by
  have residue (w : Int) : (((field.ofInt w).value : Nat) : ZMod field.modulus) = w :=
    field.residue_ofInt w
  rw [← ScalarField.residue_inj (field.reduced_reduce _) (field.reduced_reduce _),
    field.residue_reduce, field.residue_reduce]
  simp only [weightedSum, List.map_append, List.map_cons, List.sum_append, List.sum_cons,
    Nat.cast_add, Nat.cast_mul, residue, Int.cast_add]
  ring

/-- Two integer weights of one name may be added, and the second term left out. -/
theorem combineOpenings_merge (table : Table Opening)
    (before between after : List (Weight × String)) (name : String) (w w' : Int) :
    combineOpenings field table
        (before ++ (.integer w, name) :: (between ++ (.integer w', name) :: after)) =
      combineOpenings field table (before ++ (.integer (w + w'), name) :: (between ++ after)) := by
  have weight (w : Int) : resolveWeight field (.integer w, name) = .ok (field.ofInt w) := rfl
  simp only [combineOpenings, resolveTerms_eq_bind, List.mapM_append, List.mapM_cons, weight]
  cases before.mapM (resolveWeight field) with
  | error fault => rfl
  | ok _ =>
    cases between.mapM (resolveWeight field) with
    | error fault => rfl
    | ok _ =>
      cases after.mapM (resolveWeight field) with
      | error fault => rfl
      | ok _ =>
        cases before.mapM (resolveTerm field table) with
        | error fault => rfl
        | ok pairs =>
          simp only [resolveTerm, weight]
          cases table.find name with
          | error fault => rfl
          | ok opening =>
            cases between.mapM (resolveTerm field table) with
            | error fault => rfl
            | ok pairs' =>
              cases after.mapM (resolveTerm field table) with
              | error fault => rfl
              | ok pairs'' =>
                change Except.ok (sumOpenings field (pairs ++ (field.ofInt w, opening) ::
                    (pairs' ++ (field.ofInt w', opening) :: pairs''))) =
                  Except.ok (sumOpenings field (pairs ++ (field.ofInt (w + w'), opening) ::
                    (pairs' ++ pairs'')))
                rw [sumOpenings_eq, sumOpenings_eq, reduce_weightedSum_merge,
                  reduce_weightedSum_merge]

variable {key : CommitmentKey Element}

/-- Over a table of openings and the table of their commitments both sides form the same sum or
    fail alike: for the first weight without a scalar, or else for the first name that is not
    bound. A sum is the weighted sum of the secrets with that of the blindings, in whatever order
    the terms come, and integer weights of one name may be added. -/
theorem sums_agree (lawful : key.Lawful) {secrets : Table Opening} {commitments : Table Element}
    (published : ∀ name,
      commitments.get? name = (secrets.get? name).map (Opening.commitment key)) :
    (∀ terms, combineCommitments key commitments terms =
      (combineOpenings key.field secrets terms).map (Opening.commitment key)) ∧
    (∀ terms fault, combineOpenings key.field secrets terms = .error fault ↔
      SumFault key.field secrets terms fault) ∧
    (∀ terms opening, combineOpenings key.field secrets terms = .ok opening ↔
      ∃ pairs : List (Scalar × Opening),
        List.Forall₂ (fun term pair => term.1.resolve key.field = .ok pair.1 ∧
          secrets.get? term.2 = some pair.2) terms pairs ∧
        opening.secret =
          key.field.reduce (pairs.map fun pair => pair.1.value * pair.2.secret.value).sum ∧
        opening.blinding =
          key.field.reduce (pairs.map fun pair => pair.1.value * pair.2.blinding.value).sum) ∧
    (∀ terms terms' opening, terms'.Perm terms →
      combineOpenings key.field secrets terms = .ok opening →
        combineOpenings key.field secrets terms' = .ok opening ∧
        combineCommitments key commitments terms' = .ok (opening.commitment key)) ∧
    (∀ before between after name w w',
      let apart := before ++ (.integer w, name) :: (between ++ (.integer w', name) :: after)
      let merged := before ++ (.integer (w + w'), name) :: (between ++ after)
      combineOpenings key.field secrets apart = combineOpenings key.field secrets merged ∧
        combineCommitments key commitments apart = combineCommitments key commitments merged) := by
  have agree (terms : List (Weight × String)) : combineCommitments key commitments terms =
      (combineOpenings key.field secrets terms).map (Opening.commitment key) := by
    have same (name : String) :
        commitments.get? name = (secrets.map (Opening.commitment key)).get? name := by
      rw [published, Table.get?_map]
    rw [← lawful.combineCommitments_map, combineCommitments, resolveTerms_congr same,
      combineCommitments]
  refine ⟨agree, ?_, ?_, ?_, ?_⟩
  · intro terms fault
    exact except_map_eq_error.trans resolveTerms_eq_error
  · intro terms opening
    rw [combineOpenings, except_map_eq_ok]
    simp only [resolveTerms_eq_ok, toOption_eq_some]
    apply exists_congr
    intro pairs
    rw [sumOpenings_eq]
    apply and_congr_right
    intro _
    constructor
    · rintro rfl
      exact ⟨rfl, rfl⟩
    · rintro ⟨secret, blinding⟩
      cases opening
      exact congrArg₂ Opening.mk secret.symm blinding.symm
  · intro terms terms' opening perm combines
    have combines' := combineOpenings_perm perm combines
    exact ⟨combines', by rw [agree, combines']; rfl⟩
  · intro before between after name w w' apart merged
    have same : combineOpenings key.field secrets apart =
        combineOpenings key.field secrets merged :=
      combineOpenings_merge secrets before between after name w w'
    exact ⟨same, by rw [agree, agree, same]⟩

/-- Three times one commitment less another one and twice the first again. -/
theorem sums_agree_small :
    let key := ResidueGroup.small.keyOf ⟨3⟩
    let secrets := Table.ofList [("a", (⟨⟨2⟩, ⟨5⟩⟩ : Opening)), ("b", ⟨⟨3⟩, ⟨1⟩⟩)]
    combineCommitments key (secrets.map (Opening.commitment key))
        [(.integer 3, "a"), (.integer (-1), "b"), (.integer 2, "a")] =
      .ok (key.commit ⟨7⟩ ⟨2⟩) := by
  intro key secrets
  rw [(sums_agree ResidueGroup.small_lawful (Table.get?_map (Opening.commitment key) secrets)).1]
  rfl

end CommitScript

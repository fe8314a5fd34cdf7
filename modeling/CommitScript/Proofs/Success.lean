import Mathlib

/-! # What a successful computation has done

A computation that may fail has succeeded exactly when each of its steps has, one after the
other. With these facts a run is taken apart step by step, and nothing else needs to be known
of the error monads.
-/

namespace CommitScript.Success

section Except

variable {ε ε' α β : Type}

@[simp]
theorem except_bind_eq_ok {x : Except ε α} {f : α → Except ε β} {b : β} :
    (x >>= f) = .ok b ↔ ∃ a, x = .ok a ∧ f a = .ok b := by
  cases x <;> simp [bind, Except.bind]

theorem except_bind_eq_error {x : Except ε α} {f : α → Except ε β} {e : ε} :
    (x >>= f) = .error e ↔ x = .error e ∨ ∃ a, x = .ok a ∧ f a = .error e := by
  cases x <;> simp [bind, Except.bind]

@[simp]
theorem except_map_eq_ok {x : Except ε α} {f : α → β} {b : β} :
    x.map f = .ok b ↔ ∃ a, x = .ok a ∧ f a = b := by
  cases x <;> simp [Except.map]

theorem except_map_eq_error {x : Except ε α} {f : α → β} {e : ε} :
    x.map f = .error e ↔ x = .error e := by
  cases x <;> simp [Except.map]

theorem exists_map_eq_ok {x : Except ε α} {f : α → β} :
    (∃ b, x.map f = .ok b) ↔ ∃ a, x = .ok a := by
  cases x <;> simp [Except.map]

@[simp]
theorem except_pure_eq_ok {a b : α} : (pure a : Except ε α) = .ok b ↔ a = b := by
  simp [pure, Except.pure]

@[simp]
theorem mapError_eq_ok {x : Except ε α} {f : ε → ε'} {a : α} :
    x.mapError f = .ok a ↔ x = .ok a := by
  cases x <;> simp [Except.mapError]

@[simp]
theorem mapError_eq_error {x : Except ε α} {f : ε → ε'} {e : ε'} :
    x.mapError f = .error e ↔ ∃ cause, x = .error cause ∧ f cause = e := by
  cases x <;> simp [Except.mapError]

theorem toOption_eq_some {x : Except ε α} {a : α} : x.toOption = some a ↔ x = .ok a := by
  cases x <;> simp [Except.toOption]

theorem mapM_eq_ok {f : α → Except ε β} {as : List α} {bs : List β} :
    as.mapM f = .ok bs ↔ List.Forall₂ (fun a b => f a = .ok b) as bs := by
  induction as generalizing bs with
  | nil =>
      rw [List.mapM_nil, except_pure_eq_ok, List.forall₂_nil_left_iff]
      exact eq_comm
  | cons a as ih =>
      simp only [List.mapM_cons, except_bind_eq_ok, except_pure_eq_ok, ih,
        List.forall₂_cons_left_iff]
      constructor
      · rintro ⟨b, first, bs, others, rfl⟩
        exact ⟨b, bs, first, others, rfl⟩
      · rintro ⟨b, bs, first, others, rfl⟩
        exact ⟨b, first, bs, others, rfl⟩

/-- It is all the same whether values are changed one by one or all at the end. -/
theorem mapM_map {γ : Type} {f : α → Except ε β} (g : β → γ) (as : List α) :
    (as.mapM fun a => (f a).map g) = (as.mapM f).map (List.map g) := by
  induction as with
  | nil => rfl
  | cons a as ih =>
      rw [List.mapM_cons, List.mapM_cons, ih]
      cases f a with
      | error e => rfl
      | ok b => cases as.mapM f <;> rfl

/-- What a list of steps has given was given by one of them. -/
theorem exists_of_mem_mapM {f : α → Except ε β} {as : List α} {bs : List β}
    (h : as.mapM f = .ok bs) {b : β} (member : b ∈ bs) : ∃ a ∈ as, f a = .ok b := by
  rw [mapM_eq_ok] at h
  induction h with
  | nil => cases member
  | cons first _ ih =>
      cases member with
      | head => exact ⟨_, List.mem_cons_self, first⟩
      | tail _ member =>
          obtain ⟨a, others, gives⟩ := ih member
          exact ⟨a, List.mem_cons_of_mem _ others, gives⟩

/-- A list of steps fails with the fault of one of them. -/
theorem mapM_eq_error {f : α → Except ε β} {as : List α} {e : ε} (h : as.mapM f = .error e) :
    ∃ a ∈ as, f a = .error e := by
  induction as with
  | nil => cases h
  | cons a as ih =>
      rw [List.mapM_cons] at h
      cases first : f a with
      | error e' =>
          rw [first] at h
          cases h
          exact ⟨a, List.mem_cons_self, first⟩
      | ok b =>
          rw [first] at h
          cases others : as.mapM f with
          | error e' =>
              rw [others] at h
              cases h
              obtain ⟨a', member, fails⟩ := ih others
              exact ⟨a', List.mem_cons_of_mem _ member, fails⟩
          | ok bs =>
              rw [others] at h
              cases h

/-- A list of steps fails exactly at the first that does. -/
theorem mapM_eq_error_iff {f : α → Except ε β} {as : List α} {e : ε} :
    as.mapM f = .error e ↔
      ∃ before a after, as = before ++ a :: after ∧ (∀ b ∈ before, ∃ c, f b = .ok c) ∧
        f a = .error e := by
  induction as with
  | nil =>
      constructor
      · intro h
        cases h
      · rintro ⟨before, a, after, split, -⟩
        simp at split
  | cons first as ih =>
      rw [List.mapM_cons, except_bind_eq_error]
      constructor
      · rintro (fails | ⟨b, gives, others⟩)
        · exact ⟨[], first, as, rfl, fun _ h => absurd h List.not_mem_nil, fails⟩
        · rcases except_bind_eq_error.mp others with fails | ⟨bs, -, ends⟩
          · obtain ⟨before, a, after, rfl, succeed, fails⟩ := ih.mp fails
            exact ⟨first :: before, a, after, rfl,
              List.forall_mem_cons.mpr ⟨⟨b, gives⟩, succeed⟩, fails⟩
          · cases ends
      · rintro ⟨before, a, after, split, succeed, fails⟩
        cases before with
        | nil =>
            cases split
            exact .inl fails
        | cons a' before =>
            cases split
            rw [List.forall_mem_cons] at succeed
            obtain ⟨⟨b, gives⟩, succeed⟩ := succeed
            exact .inr ⟨b, gives,
              except_bind_eq_error.mpr (.inl (ih.mpr ⟨before, a, after, rfl, succeed, fails⟩))⟩

/-- A step succeeds for a whole list when it does for each of its members. -/
theorem exists_mapM_eq_ok {f : α → Except ε β} {as : List α} :
    (∃ bs, as.mapM f = .ok bs) ↔ ∀ a ∈ as, ∃ b, f a = .ok b := by
  simp only [mapM_eq_ok]
  induction as with
  | nil => exact ⟨fun _ _ h => absurd h List.not_mem_nil, fun _ => ⟨[], .nil⟩⟩
  | cons a as ih =>
      rw [List.forall_mem_cons, ← ih]
      constructor
      · rintro ⟨_, _ | ⟨first, others⟩⟩
        exact ⟨⟨_, first⟩, ⟨_, others⟩⟩
      · rintro ⟨⟨b, first⟩, ⟨bs, others⟩⟩
        exact ⟨b :: bs, .cons first others⟩

end Except

section State

variable {ε σ α β : Type} {s t : σ}

theorem bind_eq_ok {x : EStateM ε σ α} {f : α → EStateM ε σ β} {b : β} :
    (x >>= f) s = .ok b t ↔ ∃ a r, x s = .ok a r ∧ f a r = .ok b t := by
  change EStateM.bind x f s = _ ↔ _
  unfold EStateM.bind
  cases x s <;> simp

theorem bind_eq_error {x : EStateM ε σ α} {f : α → EStateM ε σ β} {e : ε} :
    (x >>= f) s = .error e t ↔ x s = .error e t ∨ ∃ a r, x s = .ok a r ∧ f a r = .error e t := by
  change EStateM.bind x f s = _ ↔ _
  unfold EStateM.bind
  cases x s <;> simp

theorem bind_of_ok {x : EStateM ε σ α} {f : α → EStateM ε σ β} {a : α} (h : x s = .ok a t) :
    (x >>= f) s = f a t := by
  change EStateM.bind x f s = _
  rw [EStateM.bind, h]

theorem bind_of_error {x : EStateM ε σ α} {f : α → EStateM ε σ β} {e : ε} (h : x s = .error e t) :
    (x >>= f) s = .error e t := by
  change EStateM.bind x f s = _
  rw [EStateM.bind, h]

theorem ofExcept_eq_ok {x : Except ε α} {a : α} :
    (ofExcept x : EStateM ε σ α) s = .ok a t ↔ x = .ok a ∧ t = s := by
  cases x with
  | error e =>
      constructor
      · intro h
        cases h
      · rintro ⟨h, -⟩
        cases h
  | ok b =>
      constructor
      · intro h
        cases h
        exact ⟨rfl, rfl⟩
      · rintro ⟨h, rfl⟩
        cases h
        rfl

theorem ofExcept_of_error {x : Except ε α} {e : ε} (h : x = .error e) :
    (ofExcept x : EStateM ε σ α) s = .error e s := by
  rw [h]
  rfl

variable {step : α → EStateM ε σ Unit}

theorem forM_nil_eq_ok : ([] : List α).forM step s = .ok () t ↔ t = s := by
  constructor
  · intro h
    cases h
    rfl
  · rintro rfl
    rfl

theorem forM_cons_eq_ok {a : α} {as : List α} :
    (a :: as).forM step s = .ok () t ↔ ∃ r, step a s = .ok () r ∧ as.forM step r = .ok () t := by
  change (step a >>= fun _ => as.forM step) s = _ ↔ _
  rw [bind_eq_ok]
  constructor
  · rintro ⟨⟨⟩, r, first, others⟩
    exact ⟨r, first, others⟩
  · rintro ⟨r, first, others⟩
    exact ⟨(), r, first, others⟩

/-- A list of steps fails at the first that does. -/
theorem forM_cons_eq_error {a : α} {as : List α} {e : ε} :
    (a :: as).forM step s = .error e t ↔
      step a s = .error e t ∨ ∃ r, step a s = .ok () r ∧ as.forM step r = .error e t := by
  change (step a >>= fun _ => as.forM step) s = _ ↔ _
  rw [bind_eq_error]
  constructor
  · rintro (fails | ⟨⟨⟩, r, first, others⟩)
    · exact .inl fails
    · exact .inr ⟨r, first, others⟩
  · rintro (fails | ⟨r, first, others⟩)
    · exact .inl fails
    · exact .inr ⟨(), r, first, others⟩

end State

end CommitScript.Success

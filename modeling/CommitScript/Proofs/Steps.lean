import CommitScript.Proofs.Success
import CommitScript.Script.Command

/-! # Runs as steps

A side of the protocol takes the commands of a script one after the other. A relation says
what a single command does to a state; its steps are what a list of commands does. Running a
script succeeds exactly along such steps.
-/

namespace CommitScript

variable {State : Type}

/-- The states before and after a list of commands, each of which takes one step. -/
inductive Steps (step : Command → State → State → Prop) : List Command → State → State → Prop
  | nil {s : State} : Steps step [] s s
  | cons {command : Command} {commands : List Command} {s r t : State}
      (first : step command s r) (others : Steps step commands r t) :
      Steps step (command :: commands) s t

namespace Steps

variable {step : Command → State → State → Prop}

theorem nil_iff {s t : State} : Steps step [] s t ↔ t = s := by
  constructor
  · intro steps
    cases steps
    rfl
  · rintro rfl
    exact .nil

theorem cons_iff {command : Command} {commands : List Command} {s t : State} :
    Steps step (command :: commands) s t ↔ ∃ r, step command s r ∧ Steps step commands r t := by
  constructor
  · intro steps
    cases steps with
    | cons first others => exact ⟨_, first, others⟩
  · rintro ⟨r, first, others⟩
    exact .cons first others

/-- A list of commands takes its steps in two parts. -/
theorem append_iff {before after : List Command} {s t : State} :
    Steps step (before ++ after) s t ↔ ∃ r, Steps step before s r ∧ Steps step after r t := by
  induction before generalizing s with
  | nil => simp only [List.nil_append, nil_iff, exists_eq_left]
  | cons command commands ih =>
      simp only [List.cons_append, cons_iff, ih]
      constructor
      · rintro ⟨r, first, r', others, rest⟩
        exact ⟨r', ⟨r, first, others⟩, rest⟩
      · rintro ⟨r', ⟨r, first, others⟩, rest⟩
        exact ⟨r, first, r', others, rest⟩

/-- What every step keeps is kept by all of them. -/
theorem preserves {Keeps : State → Prop}
    (kept : ∀ {command s t}, step command s t → Keeps s → Keeps t)
    {commands : List Command} {s t : State} (steps : Steps step commands s t) (h : Keeps s) :
    Keeps t := by
  induction steps with
  | nil => exact h
  | cons first _ ih => exact ih (kept first h)

/-- Steps that are determined one by one are determined together. -/
theorem unique (determined : ∀ {command s t t'}, step command s t → step command s t' → t' = t)
    {commands : List Command} {s t t' : State} (steps : Steps step commands s t)
    (steps' : Steps step commands s t') : t' = t := by
  induction steps with
  | nil => exact nil_iff.mp steps'
  | cons first _ ih =>
      obtain ⟨r, first', others'⟩ := cons_iff.mp steps'
      exact ih (determined first first' ▸ others')

/-- Running commands succeeds exactly along the steps, if running one command does. -/
theorem of_forM {ε : Type} {execute : Command → EStateM ε State Unit}
    (executes : ∀ {command s t}, execute command s = .ok () t ↔ step command s t)
    {commands : List Command} {s t : State} :
    commands.forM execute s = .ok () t ↔ Steps step commands s t := by
  induction commands generalizing s with
  | nil => rw [Success.forM_nil_eq_ok, nil_iff]
  | cons command commands ih => simp only [Success.forM_cons_eq_ok, executes, ih, cons_iff]

end Steps

end CommitScript

import CommitScript.Proofs.ProverSteps
import CommitScript.Proofs.ReducedValues

/-! # Openings of a prover are reduced

Every opening that a prover binds has a reduced secret and a reduced blinding: inputs and
expressions give reduced secrets, the tape gives reduced blindings, and sums and squares keep
both. So this holds of every binding after any number of commands.
-/

namespace CommitScript

open Success

variable {Element : Type}

/-- Whether both parts of an opening are reduced. -/
structure Opening.Reduced (field : ScalarField) (opening : Opening) : Prop where
  secret : field.Reduced opening.secret
  blinding : field.Reduced opening.blinding

variable {field : ScalarField} {table : Table Opening}

theorem sumOpenings_reduced (pairs : List (Scalar × Opening)) :
    (sumOpenings field pairs).Reduced field := by
  rw [sumOpenings]
  have nothing : Opening.Reduced field ⟨field.zero, field.zero⟩ :=
    ⟨field.reduced_zero, field.reduced_zero⟩
  generalize (⟨field.zero, field.zero⟩ : Opening) = total at nothing
  induction pairs generalizing total with
  | nil => exact nothing
  | cons pair pairs ih => exact ih _ ⟨field.reduced_add _ _, field.reduced_add _ _⟩

theorem combineOpenings_reduced {terms : List (Weight × String)} {opening : Opening}
    (h : combineOpenings field table terms = .ok opening) : opening.Reduced field := by
  obtain ⟨pairs, -, rfl⟩ := except_map_eq_ok.mp h
  exact sumOpenings_reduced pairs

/-- The names of reduced openings stand for reduced scalars. -/
theorem scope_reduced (reduced : table.All (Opening.Reduced field)) :
    Scope.Reduced { field, lookup? := fun name => (table.get? name).map Opening.secret } := by
  intro name value lookup
  obtain ⟨opening, found, rfl⟩ := Option.map_eq_some_iff.mp lookup
  exact (reduced name opening found).secret

theorem evaluate_reduced {text : String} {secret : Scalar}
    (reduced : table.All (Opening.Reduced field))
    (h : evaluate field table text = .ok secret) : field.Reduced secret :=
  Scope.reduced_value (scope_reduced reduced) (mapError_eq_ok.mp h)

namespace Prover

variable {task : ProverTask Element} {p p' : Prover Element}

theorem scalarAt_reduced (place : Nat) : task.key.field.Reduced (p.scalarAt task place) :=
  task.key.field.reduced_reduce _

theorem fresh_reduced {secret : Scalar} (h : task.key.field.Reduced secret) :
    (p.fresh task secret).Reduced task.key.field :=
  ⟨h, scalarAt_reduced 0⟩

theorem Step.reduced {command : Command} (step : Step task command p p')
    (h : p.bindings.All (Opening.Reduced task.key.field)) :
    p'.bindings.All (Opening.Reduced task.key.field) := by
  cases step with
  | input => exact Table.all_insert h (fresh_reduced (task.key.field.reduced_ofInt _))
  | commit evaluates => exact Table.all_insert h (fresh_reduced (evaluate_reduced h evaluates))
  | sum combines => exact Table.all_insert h (combineOpenings_reduced combines)
  | equal => exact h
  | square =>
      exact Table.all_insert h
        ⟨task.key.field.reduced_mul _ _, task.key.field.reduced_add _ _⟩
  | same => exact h
  | log => exact h

/-- After any commands every opening of a prover is reduced. -/
theorem reduced_of_steps {commands : List Command}
    (steps : Steps (Step task) commands (.start task.key) p) :
    p.bindings.All (Opening.Reduced task.key.field) :=
  steps.preserves (fun step h => step.reduced h) Table.all_empty

end Prover

end CommitScript

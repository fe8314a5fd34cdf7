import CommitScript.Proofs.Lockstep
import CommitScript.Proofs.WrittenRecords

/-! # Honest runs

What becomes of the receipt of a prover that has met no fault. Its text reads back as the
receipt, the verifier gives a report on it, and the report says of every claim of the script
whether it was true of the prover's secrets at that point.
-/

namespace CommitScript

variable {Element : Type}

namespace ProverTask

variable [DecidableEq Element] {task : ProverTask Element}

/-- The receipt of an honest run reads back from its text and is never a fault to a verifier.
    The report has one outcome for each claim, and the outcome of a claim at a position passed
    exactly when the claim deserved it of the prover at that point. -/
theorem honest_run_is_reported (lawful : task.key.Lawful) {script : Script} {receipt : Receipt}
    (proves : task.prove script = .ok receipt) :
    Receipt.read receipt.write = .ok receipt ∧
      ∃ report, task.key.verify script receipt = .ok report ∧
        report.outcomes.map Outcome.subject = script.subjects ∧
        ∀ before command after, script.commands = before ++ command :: after →
          ∃ prover, before.forM (Prover.execute task) (.start task.key) = .ok () prover ∧
            (∀ name opening, prover.bindings.get? name = some opening →
              task.key.field.Reduced opening.secret) ∧
            ∀ outcome ∈ report.outcomes, outcome.index = before.length + 1 →
              (outcome.passed = true ↔ prover.Deserves task command) := by
  obtain ⟨last, steps, rfl⟩ := ProverTask.prove_eq_ok.mp proves
  have start : Lockstep task.key ⟨last.records⟩ (.start task.key) (.start task.key _) :=
    Lockstep.start
  have nothing : (Prover.start task.key).bindings.All (Opening.Reduced task.key.field) :=
    Table.all_empty
  have written : last.records ++ [] = (⟨last.records⟩ : Receipt).records := List.append_nil _
  constructor
  · rw [Receipt.read_write, Receipt.normal_of_plain (Prover.plain_of_steps lawful steps)]
  obtain ⟨verifier, follows, lockstep⟩ := start.steps lawful nothing steps written
  have left : verifier.reader.unread = [] :=
    List.append_cancel_left (lockstep.records.trans written.symm)
  have verifies : task.key.verify script ⟨last.records⟩ = .ok ⟨verifier.outcomes⟩ :=
    CommitmentKey.verify_eq_ok.mpr ⟨verifier, follows, left, rfl⟩
  refine ⟨_, verifies, ?_, ?_⟩
  · exact CommitmentKey.subjects_of_verify verifies
  · intro before command after split
    rw [split, Steps.append_iff] at steps
    obtain ⟨prover, first, rest⟩ := steps
    obtain ⟨prover', step, others⟩ := Steps.cons_iff.mp rest
    obtain ⟨later, records⟩ := Prover.writes_of_steps rest
    obtain ⟨later', records'⟩ := Prover.writes_of_steps others
    have reduced := Prover.reduced_of_steps first
    refine ⟨prover, Prover.forM_eq_ok.mpr first, fun name opening found =>
      (reduced name opening found).secret, ?_⟩
    obtain ⟨v, follows₁, lockstep₁⟩ := start.steps lawful nothing first records.symm
    obtain ⟨v', added, follows₂, lockstep₂, outcomes, verdict⟩ :=
      lockstep₁.step lawful reduced step records'.symm
    obtain ⟨w, follows₃, -⟩ := lockstep₂.steps lawful (step.reduced reduced) others written
    have whole : Steps (Verifier.Step task.key) script.commands
        (.start task.key ⟨last.records⟩) w :=
      split ▸ Steps.append_iff.mpr ⟨v, follows₁, .cons follows₂ follows₃⟩
    have same : w = verifier := follows.unique (fun step step' => step.unique step') whole
    intro outcome member index
    rw [← same] at member
    exact verdict outcome
      (Verifier.mem_added_of_index rfl rfl follows₁ follows₂ follows₃ outcomes member index)

theorem honest_run_is_reported_small :
    ∃ receipt report,
      ResidueGroup.smallTask.prove ⟨[.input "a", .same "a" "a"]⟩ = .ok receipt ∧
        Receipt.read receipt.write = .ok receipt ∧
        ResidueGroup.smallTask.key.verify ⟨[.input "a", .same "a" "a"]⟩ receipt = .ok report ∧
        report.outcomes.map Outcome.index = [2] ∧
        ∀ outcome ∈ report.outcomes, outcome.index = 2 → outcome.passed = true := by
  have proves : ResidueGroup.smallTask.prove ⟨[.input "a", .same "a" "a"]⟩ = .ok _ := rfl
  obtain ⟨reads, report, verifies, subjects, verdicts⟩ :=
    honest_run_is_reported ResidueGroup.small_lawful proves
  obtain ⟨prover, runs, -, verdict⟩ := verdicts [.input "a"] (.same "a" "a") [] rfl
  have deserved : prover.Deserves ResidueGroup.smallTask (.same "a" "a") := by
    cases runs
    exact ⟨_, _, rfl, rfl, rfl⟩
  have indices := congrArg (List.map Subject.index) subjects
  rw [List.map_map] at indices
  exact ⟨_, report, proves, reads, verifies, indices,
    fun outcome member index => (verdict outcome member index).mpr deserved⟩

end ProverTask

end CommitScript

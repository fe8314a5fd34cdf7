import CommitScript.Proofs.Lockstep

/-! # Faults of a prover

Why a prover fails at a command, and what is left of that. Everything that can fail comes before
anything is drawn, said, written or bound, so a prover that has failed is where it was but for
having started the command. Therefore commands that fail might as well not stand in the script.
-/

namespace CommitScript

open Success

variable {Element : Type}

namespace Prover

/-- Why a prover fails at a command. -/
inductive Fails (task : ProverTask Element) (prover : Prover Element) : Command → RunError → Prop
  | input {name : String} (missing : task.inputs.get? name = none) :
      Fails task prover (.input name) (.missingInput name)
  | commit {name expression : String} {fault : RunError}
      (valueless : evaluate task.key.field prover.bindings expression = .error fault) :
      Fails task prover (.commit name expression) fault
  | sum {name : String} {terms : List (Weight × String)} {fault : RunError}
      (sumless : combineOpenings task.key.field prover.bindings terms = .error fault) :
      Fails task prover (.sum name terms) fault
  | equal {name : String} {value : Int} (unbound : prover.bindings.get? name = none) :
      Fails task prover (.equal name value) (.undefined name)
  | square {name source : String} (unbound : prover.bindings.get? source = none) :
      Fails task prover (.square name source) (.undefined source)
  | left {left right : String} (unbound : prover.bindings.get? left = none) :
      Fails task prover (.same left right) (.undefined left)
  | right {left right : String} {first : Opening}
      (found : prover.bindings.get? left = some first)
      (unbound : prover.bindings.get? right = none) :
      Fails task prover (.same left right) (.undefined right)

/-- The same prover after another number of commands. -/
def counting (prover : Prover Element) (executed : Nat) : Prover Element :=
  { prover with executed }

/-- Runs all commands, passing over those that fail; gives the commands that succeeded and the
    prover after them all. -/
def runPast (task : ProverTask Element) :
    List Command → Prover Element → List Command × Prover Element
  | [], prover => ([], prover)
  | command :: commands, prover =>
      match execute task command prover with
      | .ok _ after =>
          let (succeeded, last) := runPast task commands after
          (command :: succeeded, last)
      | .error _ after => runPast task commands after

variable {task : ProverTask Element} {p p' : Prover Element} {command : Command}
  {fault : RunError}

theorem opening_of_unbound {name : String} (unbound : p.bindings.get? name = none) :
    Prover.opening name p = .error (.undefined name) p :=
  ofExcept_of_error (Table.find_eq_error.mpr ⟨unbound, rfl⟩)

theorem execute_of_fails (fails : Fails task p command fault) :
    execute task command p = .error fault p.started := by
  cases fails with
  | input missing => exact execute_input_of_missing missing
  | commit valueless =>
      change (ofExcept (evaluate task.key.field p.bindings _) >>= _ : Proving Element Unit)
        p.started = _
      exact bind_of_error (ofExcept_of_error valueless)
  | sum sumless =>
      change (ofExcept (combineOpenings task.key.field p.bindings _) >>= _ : Proving Element Unit)
        p.started = _
      exact bind_of_error (ofExcept_of_error sumless)
  | @equal name value unbound =>
      change claimEqual task name value p.started = _
      exact bind_of_error (opening_of_unbound unbound)
  | @square name source unbound =>
      change claimSquare task name source p.started = _
      exact bind_of_error (opening_of_unbound unbound)
  | @left left right unbound =>
      change claimSame task left right p.started = _
      exact bind_of_error (opening_of_unbound unbound)
  | @right left right first found unbound =>
      have looked : Prover.opening left p.started = .ok first p.started :=
        opening_eq_ok.mpr ⟨found, rfl⟩
      change claimSame task left right p.started = _
      rw [claimSame, bind_of_ok looked]
      exact bind_of_error (opening_of_unbound unbound)

/-- A command that has no step fails. -/
theorem step_or_fails (task : ProverTask Element) (p : Prover Element) (command : Command) :
    (∃ p', Step task command p p') ∨ ∃ fault, Fails task p command fault := by
  cases command with
  | input name =>
      cases given : task.inputs.get? name with
      | none => exact .inr ⟨_, .input given⟩
      | some value => exact .inl ⟨_, .input given⟩
  | commit name expression =>
      cases evaluates : evaluate task.key.field p.bindings expression with
      | error fault => exact .inr ⟨_, .commit evaluates⟩
      | ok secret => exact .inl ⟨_, .commit evaluates⟩
  | sum name terms =>
      cases combines : combineOpenings task.key.field p.bindings terms with
      | error fault => exact .inr ⟨_, .sum combines⟩
      | ok opening => exact .inl ⟨_, .sum combines⟩
  | equal name value =>
      cases found : p.bindings.get? name with
      | none => exact .inr ⟨_, .equal found⟩
      | some opening => exact .inl ⟨_, .equal found⟩
  | square name source =>
      cases found : p.bindings.get? source with
      | none => exact .inr ⟨_, .square found⟩
      | some opening => exact .inl ⟨_, .square found⟩
  | same left right =>
      cases foundLeft : p.bindings.get? left with
      | none => exact .inr ⟨_, .left foundLeft⟩
      | some first =>
          cases foundRight : p.bindings.get? right with
          | none => exact .inr ⟨_, .right foundLeft foundRight⟩
          | some second => exact .inl ⟨_, .same foundLeft foundRight⟩
  | log => exact .inl ⟨_, .log⟩

/-- A prover that fails at a command has started it and done nothing else. -/
theorem execute_eq_error :
    execute task command p = .error fault p' ↔ Fails task p command fault ∧ p' = p.started := by
  constructor
  · intro h
    rcases step_or_fails task p command with ⟨after, step⟩ | ⟨cause, fails⟩
    · rw [execute_eq_ok.mpr step] at h
      cases h
    · rw [execute_of_fails fails] at h
      cases h
      exact ⟨fails, rfl⟩
  · rintro ⟨fails, rfl⟩
    exact execute_of_fails fails

/-- How many commands have been started makes no difference to a step. -/
theorem Step.counts (step : Step task command p p') (executed : Nat) :
    Step task command (p.counting executed) (p'.counting (executed + 1)) := by
  cases step with
  | input given => exact @Step.input _ task (p.counting executed) _ _ given
  | commit evaluates => exact @Step.commit _ task (p.counting executed) _ _ _ evaluates
  | sum combines => exact @Step.sum _ task (p.counting executed) _ _ _ combines
  | equal found => exact @Step.equal _ task (p.counting executed) _ _ _ found
  | square found => exact @Step.square _ task (p.counting executed) _ _ _ found
  | same foundLeft foundRight =>
      exact @Step.same _ task (p.counting executed) _ _ _ _ foundLeft foundRight
  | log => exact @Step.log _ task (p.counting executed)

/-- The commands that succeed are commands of the script, and a prover that is given only them
    comes to the same state, but for the number of commands. -/
theorem steps_of_runPast (commands : List Command) (p : Prover Element) (executed : Nat) :
    (runPast task commands p).1.Sublist commands ∧
      Steps (Step task) (runPast task commands p).1 (p.counting executed)
        ((runPast task commands p).2.counting
          (executed + (runPast task commands p).1.length)) := by
  induction commands generalizing p executed with
  | nil => exact ⟨.slnil, .nil⟩
  | cons command commands ih =>
      rw [runPast]
      cases ran : execute task command p with
      | ok _ after =>
          obtain ⟨among, steps⟩ := ih after (executed + 1)
          have step := execute_eq_ok.mp ran
          have position : executed + ((runPast task commands after).1.length + 1) =
              executed + 1 + (runPast task commands after).1.length := by
            omega
          simp only [List.length_cons, position]
          exact ⟨among.cons_cons command, .cons (step.counts executed) steps⟩
      | error _ after =>
          obtain ⟨-, rfl⟩ := execute_eq_error.mp ran
          obtain ⟨among, steps⟩ := ih p.started executed
          exact ⟨among.cons command, steps⟩

end Prover

namespace ProverTask

theorem prove_eq_error {task : ProverTask Element} {script : Script} {fault : RunError} :
    task.prove script = .error fault ↔
      ∃ p, script.commands.forM (Prover.execute task) (.start task.key) = .error fault p := by
  unfold prove
  cases ran : script.commands.forM (Prover.execute task) (.start task.key) with
  | error cause p =>
      have fails : Prover.run task script (.start task.key) = .error cause p := bind_of_error ran
      simp [fails]
  | ok done p =>
      have runs : ∃ p', Prover.run task script (.start task.key) = .ok () p' :=
        ⟨_, bind_of_ok ran⟩
      obtain ⟨p', runs⟩ := runs
      simp [runs]

variable [DecidableEq Element] {task : ProverTask Element}

/-- What a prover has written for some commands is never a fault to a verifier of them. -/
theorem exists_report (lawful : task.key.Lawful) {commands : List Command} {p : Prover Element}
    (steps : Steps (Prover.Step task) commands (.start task.key) p) :
    ∃ report, task.key.verify ⟨commands⟩ ⟨p.records⟩ = .ok report := by
  have opened : Lockstep task.key ⟨p.records⟩ (.start task.key) (.start task.key ⟨p.records⟩) :=
    Lockstep.start
  have nothing : (Prover.start task.key).bindings.All (Opening.Reduced task.key.field) :=
    Table.all_empty
  have written : p.records ++ [] = (⟨p.records⟩ : Receipt).records := List.append_nil _
  obtain ⟨v, follows, lockstep⟩ := opened.steps lawful nothing steps written
  have left : v.reader.unread = [] :=
    List.append_cancel_left (lockstep.records.trans written.symm)
  exact ⟨_, CommitmentKey.verify_eq_ok.mpr ⟨v, follows, left, rfl⟩⟩

/-- A command that fails leaves no trace. So a prover that passes over such commands ends where
    it would have ended without them, and a verifier who is told the others gives a report on
    what it has written. -/
theorem faults_leave_no_trace (task : ProverTask Element) :
    (∀ command fault p p', Prover.execute task command p = .error fault p' →
      p' = { p with executed := p.executed + 1 }) ∧
    ∀ commands succeeded last,
      Prover.runPast task commands (.start task.key) = (succeeded, last) →
      succeeded.Sublist commands ∧
      succeeded.forM (Prover.execute task) (.start task.key) =
        .ok () { last with executed := succeeded.length } ∧
      task.prove ⟨succeeded⟩ = .ok ⟨last.records⟩ ∧
      (task.key.Lawful →
        ∃ report, task.key.verify ⟨succeeded⟩ ⟨last.records⟩ = .ok report) := by
  constructor
  · intro command fault p p' fails
    exact (Prover.execute_eq_error.mp fails).2
  · intro commands succeeded last runs
    obtain ⟨among, steps⟩ := Prover.steps_of_runPast commands (.start task.key) 0
    rw [runs, Nat.zero_add] at steps
    rw [runs] at among
    have alone : Steps (Prover.Step task) succeeded (.start task.key)
        (last.counting succeeded.length) := steps
    refine ⟨among, Prover.forM_eq_ok.mpr alone, prove_eq_ok.mpr ⟨_, alone, rfl⟩, ?_⟩
    intro lawful
    have reported := exists_report lawful alone
    exact reported

omit [DecidableEq Element] in
theorem faults_leave_no_trace_small :
    (∃ after, Prover.execute ResidueGroup.smallTask (.square "b" "a")
          (.start ResidueGroup.smallTask.key) = .error (.undefined "a") after ∧
        after = { Prover.start ResidueGroup.smallTask.key with executed := 1 }) ∧
    ∃ last report,
      Prover.runPast ResidueGroup.smallTask
          [.square "b" "a", .input "a", .input "z", .same "a" "c", .same "a" "a"]
          (.start ResidueGroup.smallTask.key) =
        ([.input "a", .same "a" "a"], last) ∧
      ResidueGroup.smallTask.prove ⟨[.input "a", .same "a" "a"]⟩ = .ok ⟨last.records⟩ ∧
      ResidueGroup.smallTask.key.verify ⟨[.input "a", .same "a" "a"]⟩ ⟨last.records⟩ =
        .ok report := by
  obtain ⟨trace, skips⟩ := faults_leave_no_trace ResidueGroup.smallTask
  have fails : Prover.execute ResidueGroup.smallTask (.square "b" "a")
      (.start ResidueGroup.smallTask.key) = .error (.undefined "a") _ := rfl
  have runs : Prover.runPast ResidueGroup.smallTask
      [.square "b" "a", .input "a", .input "z", .same "a" "c", .same "a" "a"]
      (.start ResidueGroup.smallTask.key) = ([.input "a", .same "a" "a"], _) := rfl
  obtain ⟨-, -, proves, reports⟩ := skips _ _ _ runs
  obtain ⟨report, verifies⟩ := reports ResidueGroup.small_lawful
  exact ⟨⟨_, fails, trace _ _ _ _ fails⟩, _, report, runs, proves, verifies⟩

end ProverTask

end CommitScript

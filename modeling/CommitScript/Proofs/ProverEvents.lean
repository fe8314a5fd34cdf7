import CommitScript.Proofs.Randomness

/-! # What a prover's events tell

Everything that a prover tells of a command, logs apart, is told by the text of the command and by
whether the claim in it is true. So two provers of one script tell the same, whatever their groups,
inputs and tapes are, as long as they get equally far and the same claims are true for both.
-/

namespace CommitScript

open Success

variable {Element Element' : Type}

/-- What a prover tells of a command whose claim is true or not. -/
def Command.events (holds : Bool) : Command → List Event
  | input name => Prover.publishEvents name
  | commit name _ => Prover.publishEvents name
  | sum name terms => Prover.sumEvents name terms
  | equal name value => Prover.equalEvents name value holds
  | square name source => Prover.squareEvents name source
  | same left right => Prover.sameEvents left right holds
  | log => []

/-- Whether the claim of a command is true of the secrets that a prover has bound. Commands that
    claim nothing count as true. -/
def Prover.claimHolds (task : ProverTask Element) (prover : Prover Element) : Command → Bool
  | .equal name value => (prover.bindings.get? name).any fun opening =>
      opening.secret = task.key.field.ofInt value
  | .same left right => (prover.bindings.get? left).any fun first =>
      (prover.bindings.get? right).any fun second => first.secret = second.secret
  | _ => true

/-- Whether each claim of a script that two provers both come to is true for one exactly when it
    is true for the other. -/
def ProverTask.ClaimsAlike (task : ProverTask Element) (task' : ProverTask Element')
    (script : Script) : Prop :=
  ∀ before command after, script.commands = before ++ command :: after →
    ∀ p p', before.forM (Prover.execute task) (.start task.key) = .ok () p →
      before.forM (Prover.execute task') (.start task'.key) = .ok () p' →
        p'.claimHolds task' command = p.claimHolds task command

namespace Prover

variable {task : ProverTask Element} {p q : Prover Element} {command : Command}
  {commands : List Command}

theorem Step.tells (step : Step task command p q) (speaks : command ≠ .log) :
    q.events = p.events ++ command.events (p.claimHolds task command) := by
  cases step with
  | input => rfl
  | commit => rfl
  | sum => rfl
  | equal found =>
      rw [claimHolds, found]
      rfl
  | square => rfl
  | same foundLeft foundRight =>
      rw [claimHolds, foundLeft, Option.any_some, foundRight]
      rfl
  | log => exact absurd rfl speaks

theorem Step.counted (step : Step task command p q) : q.executed = p.executed + 1 := by
  cases step <;> rfl

theorem counted_of_steps (steps : Steps (Step task) commands p q) :
    q.executed = p.executed + commands.length := by
  induction steps with
  | nil => rfl
  | cons first _ ih =>
      rw [ih, first.counted, List.length_cons]
      omega

/-- A run writes as many records as its commands have. -/
theorem records_of_steps (steps : Steps (Step task) commands p q) :
    q.records.length = p.records.length + Command.recordsOf commands := by
  have lengths := congrArg List.length (lengths_of_steps steps)
  rwa [List.length_append, List.length_map, List.length_map] at lengths

/-- Commands fail at the first of them that does, and the prover has only started that one. -/
theorem forM_eq_error {fault : RunError} :
    commands.forM (execute task) p = .error fault q ↔
      ∃ before command after r, commands = before ++ command :: after ∧
        Steps (Step task) before p r ∧ Fails task r command fault ∧ q = r.started := by
  induction commands generalizing p with
  | nil =>
      constructor
      · intro h
        cases h
      · rintro ⟨before, command, after, r, split, -⟩
        exact absurd split.symm (List.append_ne_nil_of_right_ne_nil _ (List.cons_ne_nil _ _))
  | cons first others ih =>
      rw [forM_cons_eq_error]
      simp only [ih, execute_eq_error, execute_eq_ok]
      constructor
      · rintro (⟨fails, rfl⟩ | ⟨r, step, before, command, after, r', rfl, steps, fails, rfl⟩)
        · exact ⟨[], first, others, p, rfl, .nil, fails, rfl⟩
        · exact ⟨first :: before, command, after, r', rfl, .cons step steps, fails, rfl⟩
      · rintro ⟨_ | ⟨first', before⟩, command, after, r, split, steps, fails, rfl⟩
        · obtain ⟨rfl, rfl⟩ := List.cons.inj split
          obtain rfl := Steps.nil_iff.mp steps
          exact .inl ⟨fails, rfl⟩
        · obtain ⟨rfl, rfl⟩ := List.cons.inj split
          obtain ⟨r', step, steps⟩ := Steps.cons_iff.mp steps
          exact .inr ⟨r', step, before, command, after, r, rfl, steps, fails, rfl⟩

end Prover

namespace ProverTask

variable {task : ProverTask Element} {task' : ProverTask Element'} {script : Script}
  {p : Prover Element} {p' : Prover Element'}

/-- Wherever two provers have both come through the same commands of a script they have told the
    same. The induction takes commands from the end, for a claim is judged by all before it. -/
theorem ClaimsAlike.events (alike : task.ClaimsAlike task' script)
    (silent : .log ∉ script.commands) {before after : List Command}
    (split : script.commands = before ++ after)
    (steps : Steps (Prover.Step task) before (.start task.key) p)
    (steps' : Steps (Prover.Step task') before (.start task'.key) p') :
    p'.events = p.events := by
  induction before using List.reverseRecOn generalizing after p p' with
  | nil =>
      rw [Steps.nil_iff.mp steps, Steps.nil_iff.mp steps']
      rfl
  | append_singleton before command ih =>
      rw [List.append_assoc, List.singleton_append] at split
      have speaks : command ≠ .log := by
        rintro rfl
        exact silent (split ▸ List.mem_append_right _ List.mem_cons_self)
      obtain ⟨r, earlier, last⟩ := Steps.append_iff.mp steps
      obtain ⟨r', earlier', last'⟩ := Steps.append_iff.mp steps'
      obtain ⟨_, step, ends⟩ := Steps.cons_iff.mp last
      obtain ⟨_, step', ends'⟩ := Steps.cons_iff.mp last'
      obtain rfl := Steps.nil_iff.mp ends
      obtain rfl := Steps.nil_iff.mp ends'
      have truth := alike before command after split r r' (Prover.forM_eq_ok.mpr earlier)
        (Prover.forM_eq_ok.mpr earlier')
      rw [step.tells speaks, step'.tells speaks, ih split earlier earlier', truth]

/-- What a prover tells at the end of a script is the number of its commands and of their
    records. -/
theorem run_eq_ok :
    Prover.run task script (.start task.key) = .ok () p ↔
      ∃ q, Steps (Prover.Step task) script.commands (.start task.key) q ∧
        p = q.told [{ level := .info
                      message := "proof transcript complete"
                      fields :=
                        [("statements", Text.decimal script.commands.length),
                         ("records", Text.decimal (Command.recordsOf script.commands))] }] := by
  have ends (q : Prover Element)
      (steps : Steps (Prover.Step task) script.commands (.start task.key) q) :
      q.executed = script.commands.length ∧
        q.records.length = Command.recordsOf script.commands := by
    rw [Prover.counted_of_steps steps, Prover.records_of_steps steps]
    exact ⟨Nat.zero_add _, Nat.zero_add _⟩
  rw [Prover.run, bind_eq_ok]
  constructor
  · rintro ⟨⟨⟩, q, ran, told⟩
    have steps := Prover.forM_eq_ok.mp ran
    obtain ⟨statements, records⟩ := ends q steps
    cases told
    exact ⟨q, steps, by rw [← statements, ← records]; rfl⟩
  · rintro ⟨q, steps, rfl⟩
    obtain ⟨statements, records⟩ := ends q steps
    refine ⟨(), q, Prover.forM_eq_ok.mpr steps, ?_⟩
    rw [← statements, ← records]
    rfl

/-- A run that stops early has told only of the commands before the one at which it stops. -/
theorem run_eq_error {fault : RunError} :
    Prover.run task script (.start task.key) = .error fault p ↔
      ∃ before command after q, script.commands = before ++ command :: after ∧
        Steps (Prover.Step task) before (.start task.key) q ∧
        Prover.Fails task q command fault ∧ p = q.started := by
  rw [← Prover.forM_eq_error, Prover.run, bind_eq_error]
  refine or_iff_left ?_
  rintro ⟨⟨⟩, r, -, told⟩
  cases told

/-- The events of a run without logs tell nothing but the script and which of its claims are
    true. Two provers that both come to the end, or both stop at the same command, tell the same
    when the same claims are true for both: their groups, secrets and tapes make no difference. -/
theorem events_tell_no_secrets (task : ProverTask Element) (task' : ProverTask Element')
    (script : Script) (silent : .log ∉ script.commands)
    (alike : task.ClaimsAlike task' script) :
    (∀ p p', Prover.run task script (.start task.key) = .ok () p →
      Prover.run task' script (.start task'.key) = .ok () p' → p'.events = p.events) ∧
    ∀ fault fault' p p', Prover.run task script (.start task.key) = .error fault p →
      Prover.run task' script (.start task'.key) = .error fault' p' →
        p'.executed = p.executed → p'.events = p.events := by
  constructor
  · intro p p' runs runs'
    obtain ⟨q, steps, rfl⟩ := run_eq_ok.mp runs
    obtain ⟨q', steps', rfl⟩ := run_eq_ok.mp runs'
    have whole : script.commands = script.commands ++ [] := (List.append_nil _).symm
    exact congrArg (· ++ _) (alike.events silent whole steps steps')
  · intro fault fault' p p' runs runs' position
    obtain ⟨before, command, after, q, split, steps, -, rfl⟩ := run_eq_error.mp runs
    obtain ⟨before', command', after', q', split', steps', -, rfl⟩ := run_eq_error.mp runs'
    have counted := Prover.counted_of_steps steps
    have counted' := Prover.counted_of_steps steps'
    have length : before'.length = before.length := by
      have started : (Prover.start task.key).executed = 0 := rfl
      have started' : (Prover.start task'.key).executed = 0 := rfl
      have position : q'.executed + 1 = q.executed + 1 := position
      omega
    obtain rfl := List.append_inj_left (split'.symm.trans split) length
    have told : q'.events = q.events := alike.events silent split steps steps'
    exact told

/-- A prover with another second generator, another input and another tape. -/
def otherSmallTask : ProverTask Residue where
  key := ResidueGroup.small.keyOf ⟨9⟩
  inputs := .ofList [("a", 3)]
  tape := .cyclic #[1, 2]

/-- Both provers make a false claim in the first script, and both stop in the second. -/
theorem events_tell_no_secrets_small :
    (∃ p p', Prover.run ResidueGroup.smallTask ⟨[.input "a", .equal "a" 8]⟩
          (.start ResidueGroup.smallTask.key) = .ok () p ∧
        Prover.run otherSmallTask ⟨[.input "a", .equal "a" 8]⟩ (.start otherSmallTask.key) =
          .ok () p' ∧
        p'.events = p.events) ∧
      ∃ p p', Prover.run ResidueGroup.smallTask ⟨[.input "a", .square "b" "c"]⟩
          (.start ResidueGroup.smallTask.key) = .error (.undefined "c") p ∧
        Prover.run otherSmallTask ⟨[.input "a", .square "b" "c"]⟩ (.start otherSmallTask.key) =
          .error (.undefined "c") p' ∧
        p'.events = p.events := by
  have alike (second : Command)
      (truth : ∀ p p', ([.input "a"] : List Command).forM
          (Prover.execute ResidueGroup.smallTask) (.start ResidueGroup.smallTask.key) = .ok () p →
        ([.input "a"] : List Command).forM (Prover.execute otherSmallTask)
          (.start otherSmallTask.key) = .ok () p' →
        p'.claimHolds otherSmallTask second = p.claimHolds ResidueGroup.smallTask second) :
      ResidueGroup.smallTask.ClaimsAlike otherSmallTask ⟨[.input "a", second]⟩ := by
    rintro (_ | ⟨first, _ | ⟨second, _ | ⟨third, before⟩⟩⟩) command after split p p' runs runs'
    · cases split
      rfl
    · cases split
      exact truth p p' runs runs'
    · cases split
    · cases split
  have claims := alike (.equal "a" 8) fun p p' runs runs' => by
    cases runs
    cases runs'
    rfl
  have squares := alike (.square "b" "c") fun p p' _ _ => rfl
  have ends : Prover.run ResidueGroup.smallTask ⟨[.input "a", .equal "a" 8]⟩
      (.start ResidueGroup.smallTask.key) = .ok () _ := rfl
  have ends' : Prover.run otherSmallTask ⟨[.input "a", .equal "a" 8]⟩
      (.start otherSmallTask.key) = .ok () _ := rfl
  have stops : Prover.run ResidueGroup.smallTask ⟨[.input "a", .square "b" "c"]⟩
      (.start ResidueGroup.smallTask.key) = .error (.undefined "c") _ := rfl
  have stops' : Prover.run otherSmallTask ⟨[.input "a", .square "b" "c"]⟩
      (.start otherSmallTask.key) = .error (.undefined "c") _ := rfl
  exact ⟨⟨_, _, ends, ends',
      (events_tell_no_secrets _ _ _ (by decide) claims).1 _ _ ends ends'⟩,
    _, _, stops, stops',
      (events_tell_no_secrets _ _ _ (by decide) squares).2 _ _ _ _ stops stops' rfl⟩

end ProverTask

end CommitScript

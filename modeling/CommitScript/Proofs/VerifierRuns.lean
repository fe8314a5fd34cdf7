import CommitScript.Proofs.CommandOutline
import CommitScript.Proofs.VerifierSteps

/-! # Runs of a verifier

What the steps of a verifier keep and what they add: the records they take fit the layout of
their commands, records behind those make no difference, each claim adds one outcome, and each
binding command binds its name. What holds of a step is carried to a run by induction on the
steps.
-/

namespace CommitScript

open Success

variable {Element : Type}

namespace Verifier

/-- The same verifier with other records left to take. -/
def leaving (verifier : Verifier Element) (unread : List (List String)) : Verifier Element :=
  { verifier with reader := { unread, taken := verifier.reader.taken } }

/-- Whether records hold what the layout of some commands asks for. -/
abbrev Fits (key : CommitmentKey Element) : List (List Encoded) → List (List String) → Prop :=
  List.Forall₂ (List.Forall₂ (Encoded.Decodes key))

theorem length_of_fits {key : CommitmentKey Element} {commands : List Command}
    {records : List (List String)} (fits : Fits key (commands.flatMap Command.layout) records) :
    records.length = Command.recordsOf commands := by
  rw [← fits.length_eq, Command.recordsOf, ← Command.map_length_flatMap_layout, List.length_map]

/-- Records that fit one layout after another fit them in two parts. -/
theorem fits_append {key : CommitmentKey Element} {layouts layouts' : List (List Encoded)}
    {records : List (List String)} (fits : Fits key (layouts ++ layouts') records) :
    ∃ first others, records = first ++ others ∧ Fits key layouts first ∧
      Fits key layouts' others := by
  refine ⟨records.take layouts.length, records.drop layouts.length,
    (List.take_append_drop _ _).symm, ?_, ?_⟩
  · exact (List.forall₂_take_append _ _ _ fits.flip).flip
  · exact (List.forall₂_drop_append _ _ _ fits.flip).flip

variable [DecidableEq Element] {key : CommitmentKey Element} {v v' : Verifier Element}
  {command : Command} {commands : List Command}

theorem Step.takes (step : Step key command v v') :
    ∃ records, v.reader.unread = records ++ v'.reader.unread ∧
      v'.reader.taken = v.reader.taken + records.length ∧ Fits key command.layout records ∧
      ∀ rest, Step key command (v.leaving (records ++ rest)) (v'.leaving rest) := by
  cases step with
  | input unread read =>
      exact ⟨[_], unread, rfl, .cons (.cons ⟨_, read⟩ .nil) .nil,
        fun rest => @Step.input _ _ _ (v.leaving ([_] ++ rest)) _ _ rest _ rfl read⟩
  | commit unread read =>
      exact ⟨[_], unread, rfl, .cons (.cons ⟨_, read⟩ .nil) .nil,
        fun rest => @Step.commit _ _ _ (v.leaving ([_] ++ rest)) _ _ _ rest _ rfl read⟩
  | sum combines => exact ⟨[], rfl, rfl, .nil, fun rest => .sum combines⟩
  | equal found unread read =>
      exact ⟨[_], unread, rfl, .cons (ValueProof.exists_ofFields.mp ⟨_, read⟩) .nil,
        fun rest => .equal found rfl read⟩
  | square found unread readSquared read =>
      exact ⟨[_, _], unread, rfl, .cons (.cons ⟨_, readSquared⟩ .nil)
        (.cons (SquareProof.exists_ofFields.mp ⟨_, read⟩) .nil),
        fun rest => @Step.square _ _ _ (v.leaving ([_, _] ++ rest)) _ _ _ _ rest _ _ _ found rfl
          readSquared read⟩
  | same foundLeft foundRight unread read =>
      exact ⟨[_], unread, rfl, .cons (SameProof.exists_ofFields.mp ⟨_, read⟩) .nil,
        fun rest => .same foundLeft foundRight rfl read⟩
  | log => exact ⟨[], rfl, rfl, .nil, fun rest => .log⟩

/-- A run takes records that fit its commands, and would go the same way with any others behind
    them. -/
theorem takes_of_steps (steps : Steps (Step key) commands v v') :
    ∃ records, v.reader.unread = records ++ v'.reader.unread ∧
      v'.reader.taken = v.reader.taken + records.length ∧
      Fits key (commands.flatMap Command.layout) records ∧
      ∀ rest, Steps (Step key) commands (v.leaving (records ++ rest)) (v'.leaving rest) := by
  induction steps with
  | nil => exact ⟨[], rfl, rfl, .nil, fun rest => .nil⟩
  | cons first _ ih =>
      obtain ⟨records, unread, taken, fits, others⟩ := first.takes
      obtain ⟨records', unread', taken', fits', others'⟩ := ih
      refine ⟨records ++ records', ?_, ?_, ?_, ?_⟩
      · rw [unread, unread', List.append_assoc]
      · rw [taken', taken, List.length_append, Nat.add_assoc]
      · exact List.rel_append fits fits'
      · intro rest
        rw [List.append_assoc]
        exact .cons (others _) (others' rest)

/-- A run leaves the records behind those of its commands. -/
theorem drops_of_steps (steps : Steps (Step key) commands v v') :
    v'.reader = { unread := v.reader.unread.drop (Command.recordsOf commands),
                  taken := v.reader.taken + Command.recordsOf commands } := by
  obtain ⟨records, unread, taken, fits, -⟩ := takes_of_steps steps
  rw [← length_of_fits fits, unread, List.drop_left, ← taken]

/-- Runs that are given the same records for their commands are the same, whatever comes behind
    these. -/
theorem leaving_of_steps {unread : List (List String)} {w : Verifier Element}
    (steps : Steps (Step key) commands v v')
    (steps' : Steps (Step key) commands (v.leaving unread) w)
    (same : unread.take (Command.recordsOf commands) =
      v.reader.unread.take (Command.recordsOf commands)) :
    w = v'.leaving w.reader.unread := by
  obtain ⟨records, left, -, fits, reroute⟩ := takes_of_steps steps
  have whole : unread = records ++ w.reader.unread := by
    rw [left, ← length_of_fits fits, List.take_left, length_of_fits fits] at same
    rw [drops_of_steps steps', ← same]
    exact (List.take_append_drop _ _).symm
  refine (reroute w.reader.unread).unique (fun step step' => step.unique step') ?_
  rw [← whole]
  exact steps'

/-- The same verifier after other outcomes and events. -/
def recalling (verifier : Verifier Element) (outcomes : List Outcome) (events : List Event) :
    Verifier Element :=
  { verifier with outcomes, events }

/-- Outcomes and events are only written, so a step goes the same way whatever they were. -/
theorem Step.recalls (step : Step key command v v') :
    ∃ added, v'.outcomes = v.outcomes ++ added ∧
      ∀ outcomes events, ∃ told, Step key command (v.recalling outcomes events)
        (v'.recalling (outcomes ++ added) told) := by
  cases step with
  | @input _ name _ rest _ unread read =>
      refine ⟨[], (List.append_nil _).symm, fun outcomes events =>
        ⟨events ++ [receiptEvent .input name], ?_⟩⟩
      rw [List.append_nil]
      exact @Step.input _ _ _ (v.recalling outcomes events) _ _ rest _ unread read
  | @commit _ name _ _ rest _ unread read =>
      refine ⟨[], (List.append_nil _).symm, fun outcomes events =>
        ⟨events ++ [receiptEvent .commit name], ?_⟩⟩
      rw [List.append_nil]
      exact @Step.commit _ _ _ (v.recalling outcomes events) _ _ _ rest _ unread read
  | @sum _ name terms _ combines =>
      refine ⟨[], (List.append_nil _).symm, fun outcomes events =>
        ⟨events ++ [sumEvent name terms], ?_⟩⟩
      rw [List.append_nil]
      exact @Step.sum _ _ _ (v.recalling outcomes events) _ _ _ combines
  | equal found unread read =>
      exact ⟨[_], rfl, fun outcomes events =>
        ⟨_, @Step.equal _ _ _ (v.recalling outcomes events) _ _ _ _ _ _ found unread read⟩⟩
  | square found unread readSquared read =>
      exact ⟨[_], rfl, fun outcomes events =>
        ⟨_, @Step.square _ _ _ (v.recalling outcomes events) _ _ _ _ _ _ _ _ found unread
          readSquared read⟩⟩
  | same foundLeft foundRight unread read =>
      exact ⟨[_], rfl, fun outcomes events =>
        ⟨_, @Step.same _ _ _ (v.recalling outcomes events) _ _ _ _ _ _ _ foundLeft foundRight
          unread read⟩⟩
  | log =>
      refine ⟨[], (List.append_nil _).symm, fun outcomes events => ⟨events, ?_⟩⟩
      rw [List.append_nil]
      exact @Step.log _ _ _ (v.recalling outcomes events)

theorem recalls_of_steps (steps : Steps (Step key) commands v v') :
    ∃ added, v'.outcomes = v.outcomes ++ added ∧
      ∀ outcomes events, ∃ told, Steps (Step key) commands (v.recalling outcomes events)
        (v'.recalling (outcomes ++ added) told) := by
  induction steps with
  | nil =>
      refine ⟨[], (List.append_nil _).symm, fun outcomes events => ⟨events, ?_⟩⟩
      rw [List.append_nil]
      exact .nil
  | cons first _ ih =>
      obtain ⟨added, adds, recalls⟩ := first.recalls
      obtain ⟨added', adds', recalls'⟩ := ih
      refine ⟨added ++ added', ?_, fun outcomes events => ?_⟩
      · rw [adds', adds, List.append_assoc]
      · obtain ⟨told, step⟩ := recalls outcomes events
        obtain ⟨told', steps⟩ := recalls' (outcomes ++ added) told
        rw [List.append_assoc] at steps
        exact ⟨told', .cons step steps⟩

theorem Step.adds_outcome (step : Step key command v v') :
    v'.executed = v.executed + 1 ∧
      ∃ added, v'.outcomes = v.outcomes ++ added ∧
        added.map Outcome.subject = (command.subject? (v.executed + 1)).toList := by
  cases step with
  | input => exact ⟨rfl, [], (List.append_nil _).symm, rfl⟩
  | commit => exact ⟨rfl, [], (List.append_nil _).symm, rfl⟩
  | sum => exact ⟨rfl, [], (List.append_nil _).symm, rfl⟩
  | equal => exact ⟨rfl, [_], rfl, rfl⟩
  | square => exact ⟨rfl, [_], rfl, rfl⟩
  | same => exact ⟨rfl, [_], rfl, rfl⟩
  | log => exact ⟨rfl, [], (List.append_nil _).symm, rfl⟩

/-- A run adds one outcome for each claim, in the order of the claims. -/
theorem adds_outcomes_of_steps (steps : Steps (Step key) commands v v') :
    v'.executed = v.executed + commands.length ∧
      ∃ added, v'.outcomes = v.outcomes ++ added ∧
        added.map Outcome.subject = subjectsFrom (v.executed + 1) commands := by
  induction steps with
  | nil => exact ⟨rfl, [], (List.append_nil _).symm, rfl⟩
  | cons first _ ih =>
      obtain ⟨executed, added, outcomes, subjects⟩ := first.adds_outcome
      obtain ⟨executed', added', outcomes', subjects'⟩ := ih
      refine ⟨?_, added ++ added', ?_, ?_⟩
      · rw [executed', executed, List.length_cons]
        omega
      · rw [outcomes', outcomes, List.append_assoc]
      · rw [List.map_append, subjects, subjects', executed, subjectsFrom_cons]

/-- Of the outcomes after a whole script only those that a command has added are at its
    position. -/
theorem mem_added_of_index {before after : List Command} {s w : Verifier Element}
    {added : List Outcome} (empty : s.outcomes = []) (zero : s.executed = 0)
    (first : Steps (Step key) before s v) (step : Step key command v v')
    (others : Steps (Step key) after v' w) (adds : v'.outcomes = v.outcomes ++ added)
    {outcome : Outcome} (member : outcome ∈ w.outcomes)
    (index : outcome.index = before.length + 1) : outcome ∈ added := by
  obtain ⟨executed, earlier, outcomes, subjects⟩ := adds_outcomes_of_steps first
  obtain ⟨-, later, outcomes', subjects'⟩ := adds_outcomes_of_steps others
  rw [outcomes', adds, outcomes, empty, List.nil_append, List.mem_append, List.mem_append]
    at member
  have position : outcome.subject.index = before.length + 1 := index
  rcases member with (early | here) | late
  · have among : outcome.subject ∈ subjectsFrom (s.executed + 1) before :=
      subjects ▸ List.mem_map_of_mem early
    have := (index_of_mem_subjectsFrom among).2
    omega
  · exact here
  · have among : outcome.subject ∈ subjectsFrom (v'.executed + 1) after :=
      subjects' ▸ List.mem_map_of_mem late
    have := (index_of_mem_subjectsFrom among).1
    have := step.adds_outcome.1
    omega

theorem Step.binds (step : Step key command v v') (name : String) :
    (v'.bindings.get? name).isSome ↔
      (v.bindings.get? name).isSome ∨ name ∈ command.binds := by
  have inserted (bound : String) (c : Element) :
      ((v.bindings.insert bound c).get? name).isSome ↔
        (v.bindings.get? name).isSome ∨ name ∈ [bound] := by
    rw [Table.get?_insert, List.mem_singleton]
    split
    · next same => simp [same]
    · next different => simp [different]
  cases step with
  | input => exact inserted _ _
  | commit => exact inserted _ _
  | sum => exact inserted _ _
  | equal => exact (or_iff_left List.not_mem_nil).symm
  | square => exact inserted _ _
  | same => exact (or_iff_left List.not_mem_nil).symm
  | log => exact (or_iff_left List.not_mem_nil).symm

end Verifier

namespace CommitmentKey

variable [DecidableEq Element] {key : CommitmentKey Element} {script : Script}
  {receipt : Receipt} {v : Verifier Element}

theorem verify_of_fault {fault : RunError}
    (h : Verifier.run key script (.start key receipt) = .error fault v) :
    key.verify script receipt = .error fault := by
  have replays : Verifier.replay key script (.start key receipt) = .error fault v :=
    bind_of_error h
  rw [verify, replays]

/-- After all its steps a verification hangs on the records that are left. -/
theorem verify_of_steps (steps : Steps (Verifier.Step key) script.commands (.start key receipt) v) :
    key.verify script receipt =
      if v.reader.unread = [] then .ok { outcomes := v.outcomes }
      else .error (.overrun v.reader.unread.length) := by
  have runs : Verifier.run key script (.start key receipt) = .ok () v :=
    Verifier.forM_eq_ok.mpr steps
  have replays : Verifier.replay key script (.start key receipt) = Verifier.finish v :=
    bind_of_ok runs
  rw [verify, replays]
  obtain ⟨bindings, ⟨unread, taken⟩, history, outcomes, executed, events⟩ := v
  cases unread with
  | nil => rfl
  | cons fields rest => rfl

/-- A verification gives a report exactly when the script has its steps and takes every
    record. -/
theorem verify_eq_ok {report : Report} :
    key.verify script receipt = .ok report ↔
      ∃ v, Steps (Verifier.Step key) script.commands (.start key receipt) v ∧
        v.reader.unread = [] ∧ report = { outcomes := v.outcomes } := by
  constructor
  · intro h
    cases ran : Verifier.run key script (.start key receipt) with
    | error fault v =>
        rw [verify_of_fault ran] at h
        cases h
    | ok done v =>
        have steps := Verifier.forM_eq_ok.mp ran
        rw [verify_of_steps steps] at h
        split at h
        · next left =>
          cases h
          exact ⟨v, steps, left, rfl⟩
        · cases h
  · rintro ⟨v, steps, left, rfl⟩
    rw [verify_of_steps steps, if_pos left]

/-- A report has one outcome for each claim of the script. -/
theorem subjects_of_verify {report : Report} (h : key.verify script receipt = .ok report) :
    report.outcomes.map Outcome.subject = script.subjects := by
  obtain ⟨v, steps, -, rfl⟩ := verify_eq_ok.mp h
  obtain ⟨-, added, outcomes, subjects⟩ := Verifier.adds_outcomes_of_steps steps
  rw [outcomes]
  exact subjects

end CommitmentKey

end CommitScript

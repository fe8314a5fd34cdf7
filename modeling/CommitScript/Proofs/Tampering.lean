import CommitScript.Proofs.ProofEquations
import CommitScript.Proofs.ResidueKeys
import CommitScript.Proofs.VerifierRuns
import CommitScript.Proofs.WeightedSums

/-! # Tampering with a receipt

A claim that has passed does not pass again when one field of its proof has been exchanged. No
assumption on challenges is needed: up to that record both runs have the same history, and of
the other fields each determines the one that was exchanged.
-/

namespace CommitScript

open Success

variable {Element : Type}

/-- Whether a report says that the claim at a position passed. -/
def Report.Accepts (report : Report) (index : Nat) : Prop :=
  ∃ outcome ∈ report.outcomes, outcome.index = index ∧ outcome.passed = true

/-- Whether a report says that the claim at a position did not pass. -/
def Report.Rejects (report : Report) (index : Nat) : Prop :=
  (∃ outcome ∈ report.outcomes, outcome.index = index) ∧
    ∀ outcome ∈ report.outcomes, outcome.index = index → outcome.passed = false

/-- A receipt in which one record has been changed. -/
def Receipt.change (receipt : Receipt) (record : Nat) (f : List String → List String) : Receipt :=
  { records := receipt.records.modify record f }

/-- A receipt in which one field of one record has been exchanged for a text. -/
def Receipt.exchange (receipt : Receipt) (record place : Nat) (text : String) : Receipt :=
  receipt.change record fun fields => fields.set place text

theorem Receipt.change_at (before : List (List String)) (fields : List String)
    (after : List (List String)) (f : List String → List String) :
    change ⟨before ++ fields :: after⟩ before.length f = ⟨before ++ f fields :: after⟩ := by
  rw [change]
  congr 1
  induction before with
  | nil => rfl
  | cons first before ih => exact congrArg (first :: ·) ih

namespace Verifier

variable {key : CommitmentKey Element} [DecidableEq Element] {v r r' : Verifier Element}
  {command : Command}

theorem Step.genuine (lawful : key.Lawful) (step : Step key command v r)
    (h : v.bindings.All key.group.Member) : r.bindings.All key.group.Member := by
  have member {text : String} {a : Element} (read : key.group.ofHex text = .ok a) :
      key.group.Member a :=
    (lawful.group.ofHex_eq_ok.mp read).1
  cases step with
  | input _ read => exact Table.all_insert h (member read)
  | commit _ read => exact Table.all_insert h (member read)
  | sum combines => exact Table.all_insert h (lawful.combineCommitments_member h combines)
  | equal => exact h
  | square _ _ readSquared => exact Table.all_insert h (member readSquared)
  | same => exact h
  | log => exact h

/-- Every commitment that a verifier has bound is genuine. -/
theorem genuine_of_steps (lawful : key.Lawful) {commands : List Command} {receipt : Receipt}
    (steps : Steps (Step key) commands (.start key receipt) v) :
    v.bindings.All key.group.Member :=
  steps.preserves (fun step h => step.genuine lawful h) Table.all_empty

/-- Two receipts that begin with the same records lead a verifier into the same state before the
    command to which the next records belong, and what their reports say of that command is what
    its step adds. -/
theorem same_until {script : Script} {before after : List Command}
    {taken unread unread' : List (List String)} {report report' : Report}
    (split : script.commands = before ++ command :: after)
    (length : taken.length = Command.recordsOf before)
    (verifies : key.verify script ⟨taken ++ unread⟩ = .ok report)
    (verifies' : key.verify script ⟨taken ++ unread'⟩ = .ok report') :
    ∃ v r r' added added', v.reader.unread = unread ∧
      Steps (Step key) before (.start key ⟨taken ++ unread⟩) v ∧ Step key command v r ∧
      Step key command (v.leaving unread') r' ∧
      r.outcomes = v.outcomes ++ added ∧ r'.outcomes = v.outcomes ++ added' ∧
      (∀ outcome ∈ report.outcomes, outcome.index = before.length + 1 → outcome ∈ added) ∧
      ∀ outcome ∈ report'.outcomes, outcome.index = before.length + 1 → outcome ∈ added' := by
  obtain ⟨last, steps, -, rfl⟩ := CommitmentKey.verify_eq_ok.mp verifies
  obtain ⟨last', steps', -, rfl⟩ := CommitmentKey.verify_eq_ok.mp verifies'
  rw [split, Steps.append_iff] at steps steps'
  obtain ⟨v, first, rest⟩ := steps
  obtain ⟨v', first', rest'⟩ := steps'
  obtain ⟨r, step, others⟩ := Steps.cons_iff.mp rest
  obtain ⟨r', step', others'⟩ := Steps.cons_iff.mp rest'
  obtain ⟨records, left, -, fits, reroute⟩ := takes_of_steps first
  obtain ⟨rfl, rfl⟩ := List.append_inj left (length.trans (length_of_fits fits).symm)
  have same : v' = v.leaving unread' := by
    refine (reroute unread').unique (fun step step' => step.unique step') ?_
    exact first'
  subst same
  obtain ⟨-, added, adds, -⟩ := step.adds_outcome
  obtain ⟨-, added', adds', -⟩ := step'.adds_outcome
  exact ⟨v, r, r', added, added', rfl, first, step, step', adds, adds',
    fun outcome member index => mem_added_of_index rfl rfl first step others adds member index,
    fun outcome member index => mem_added_of_index rfl rfl first' step' others' adds' member index⟩

/-- When each of two steps has added one outcome and they cannot both have passed, the second did
    not if the first did. -/
theorem rejected_of_added {earlier added added' : List Outcome} {outcome outcome' : Outcome}
    (adds : earlier ++ [outcome] = earlier ++ added)
    (adds' : earlier ++ [outcome'] = earlier ++ added')
    (differ : outcome.passed = true → outcome'.passed = true → False)
    (accepted : ∃ outcome ∈ added, outcome.passed = true) :
    ∀ outcome ∈ added', outcome.passed = false := by
  obtain rfl := List.append_cancel_left adds
  obtain rfl := List.append_cancel_left adds'
  obtain ⟨other, member, passed⟩ := accepted
  rw [List.mem_singleton.mp member] at passed
  rw [List.forall_mem_singleton, Bool.eq_false_iff]
  exact differ passed

theorem equal_rejects_other_proof (lawful : key.Lawful) (genuine : v.bindings.All key.group.Member)
    {name : String} {value : Int} {fields : List String} {rest : List (List String)}
    {added added' : List Outcome} (step : Step key (.equal name value) v r)
    (unread : v.reader.unread = fields :: rest) {place : Nat} {text : String}
    (changed : fields.set place text ≠ fields)
    (step' : Step key (.equal name value) (v.leaving (fields.set place text :: rest)) r')
    (adds : r.outcomes = v.outcomes ++ added) (adds' : r'.outcomes = v.outcomes ++ added')
    (accepted : ∃ outcome ∈ added, outcome.passed = true) :
    ∀ outcome ∈ added', outcome.passed = false := by
  cases step with
  | @equal _ _ _ _ _ c proof found unread₁ read =>
  cases step' with
  | @equal _ _ _ _ _ c' proof' found' unread₂ read' =>
      cases unread₁.symm.trans unread
      cases unread₂
      cases found.symm.trans found'
      obtain ⟨valid, written⟩ := (ValueProof.ofFields_eq_ok lawful.group.canonical).mp read
      obtain ⟨valid', written'⟩ := (ValueProof.ofFields_eq_ok lawful.group.canonical).mp read'
      refine rejected_of_added adds adds' (fun passed passed' => ?_) accepted
      have exchanged := ValueProof.exchanged_of_toFields lawful.group.toLaws valid valid'
        (written ▸ written'.symm)
      have same := ValueProof.eq_of_verify lawful (genuine name c found) valid valid' passed passed'
        exchanged
      exact changed (written'.trans (same ▸ written.symm))

theorem same_rejects_other_proof (lawful : key.Lawful) (genuine : v.bindings.All key.group.Member)
    {left right : String} {fields fields' : List String} {rest : List (List String)}
    {added added' : List Outcome} (step : Step key (.same left right) v r)
    (unread : v.reader.unread = fields :: rest) (changed : fields' ≠ fields)
    (step' : Step key (.same left right) (v.leaving (fields' :: rest)) r')
    (adds : r.outcomes = v.outcomes ++ added) (adds' : r'.outcomes = v.outcomes ++ added')
    (accepted : ∃ outcome ∈ added, outcome.passed = true) :
    ∀ outcome ∈ added', outcome.passed = false := by
  cases step with
  | @same _ _ _ _ _ first second proof foundLeft foundRight unread₁ read =>
  cases step' with
  | @same _ _ _ _ _ first' second' proof' foundLeft' foundRight' unread₂ read' =>
      cases unread₁.symm.trans unread
      cases unread₂
      cases foundLeft.symm.trans foundLeft'
      cases foundRight.symm.trans foundRight'
      obtain ⟨valid, written⟩ := SameProof.ofFields_eq_ok.mp read
      obtain ⟨valid', written'⟩ := SameProof.ofFields_eq_ok.mp read'
      refine rejected_of_added adds adds' (fun passed passed' => ?_) accepted
      have same := SameProof.eq_of_verify lawful v.history (genuine left first foundLeft)
        (genuine right second foundRight) valid valid' passed passed'
      exact changed (written'.trans (same ▸ written.symm))

theorem square_rejects_other_proof (lawful : key.Lawful)
    (genuine : v.bindings.All key.group.Member) {name source : String}
    {opening fields : List String} {rest : List (List String)} {added added' : List Outcome}
    (step : Step key (.square name source) v r)
    (unread : v.reader.unread = opening :: fields :: rest) {place : Nat} {text : String}
    (changed : fields.set place text ≠ fields)
    (step' : Step key (.square name source)
      (v.leaving (opening :: fields.set place text :: rest)) r')
    (adds : r.outcomes = v.outcomes ++ added) (adds' : r'.outcomes = v.outcomes ++ added')
    (accepted : ∃ outcome ∈ added, outcome.passed = true) :
    ∀ outcome ∈ added', outcome.passed = false := by
  cases step with
  | @square _ _ _ _ _ _ c squared proof found unread₁ readSquared read =>
  cases step' with
  | @square _ _ _ _ _ _ c' squared' proof' found' unread₂ readSquared' read' =>
      cases unread₁.symm.trans unread
      cases unread₂
      cases found.symm.trans found'
      cases readSquared.symm.trans readSquared'
      obtain ⟨valid, written⟩ := (SquareProof.ofFields_eq_ok lawful.group.canonical).mp read
      obtain ⟨valid', written'⟩ := (SquareProof.ofFields_eq_ok lawful.group.canonical).mp read'
      have memberSquared := (lawful.group.ofHex_eq_ok.mp readSquared).1
      refine rejected_of_added adds adds' (fun passed passed' => ?_) accepted
      have exchanged := SquareProof.exchanged_of_toFields lawful.group.toLaws valid valid'
        (written ▸ written'.symm)
      have same := SquareProof.eq_of_verify lawful (genuine source c found) memberSquared valid
        valid' passed passed' exchanged
      exact changed (written'.trans (same ▸ written.symm))

/-- Behind a proof whose challenge is not zero only the commitment that it was made for is
    accepted. -/
theorem square_rejects_other_commitment (lawful : key.Lawful)
    (genuine : v.bindings.All key.group.Member) {name source : String}
    {opening opening' fields : List String} {rest : List (List String)}
    {added added' : List Outcome} (step : Step key (.square name source) v r)
    (unread : v.reader.unread = opening :: fields :: rest) {text : String} {k : Scalar}
    (challenge : fields[2]? = some text) (decodes : key.field.ofHex text = .ok k)
    (nonzero : k ≠ key.field.zero) (changed : opening' ≠ opening)
    (step' : Step key (.square name source) (v.leaving (opening' :: fields :: rest)) r')
    (adds : r.outcomes = v.outcomes ++ added) (adds' : r'.outcomes = v.outcomes ++ added')
    (accepted : ∃ outcome ∈ added, outcome.passed = true) :
    ∀ outcome ∈ added', outcome.passed = false := by
  cases step with
  | @square _ _ _ _ _ _ c squared proof found unread₁ readSquared read =>
  cases step' with
  | @square _ _ _ _ _ _ c' squared' proof' found' unread₂ readSquared' read' =>
      cases unread₁.symm.trans unread
      cases unread₂
      cases found.symm.trans found'
      cases read.symm.trans read'
      obtain ⟨valid, written⟩ := (SquareProof.ofFields_eq_ok lawful.group.canonical).mp read
      obtain ⟨memberSquared, writtenSquared⟩ := lawful.group.ofHex_eq_ok.mp readSquared
      obtain ⟨memberSquared', writtenSquared'⟩ := lawful.group.ofHex_eq_ok.mp readSquared'
      have drawn : proof.challenge = k := by
        rw [written] at challenge
        cases challenge
        have canonical := ScalarField.ofHex_eq_ok.mp decodes
        exact (ScalarField.toHex_inj valid.challenge canonical.1).mp canonical.2
      refine rejected_of_added adds adds' (fun passed passed' => ?_) accepted
      have same := SquareProof.squared_eq_of_verify lawful (genuine source c found) memberSquared
        memberSquared' valid (drawn ▸ nonzero) passed passed'
      rw [writtenSquared, writtenSquared', same] at changed
      exact changed rfl

theorem Step.claims (step : Step key command v r) {added : List Outcome}
    (adds : r.outcomes = v.outcomes ++ added) {outcome : Outcome} (member : outcome ∈ added) :
    command.claimed?.isSome := by
  obtain ⟨-, added', adds', subjects⟩ := step.adds_outcome
  obtain rfl := List.append_cancel_left (adds.symm.trans adds')
  have subject : outcome.subject ∈ (command.subject? (v.executed + 1)).toList :=
    subjects ▸ List.mem_map_of_mem member
  have some := Option.mem_toList.mp subject
  obtain ⟨name, claimed, -⟩ := Option.map_eq_some_iff.mp some
  exact claimed ▸ rfl

/-- The records of a command, between those of the commands before and after it. -/
theorem records_of_command {script : Script} {receipt : Receipt} {report : Report}
    {before after : List Command} (split : script.commands = before ++ command :: after)
    (verifies : key.verify script receipt = .ok report) :
    ∃ taken own rest, receipt.records = taken ++ (own ++ rest) ∧
      taken.length = Command.recordsOf before ∧ own.length = command.shape.length := by
  obtain ⟨last, steps, -, -⟩ := CommitmentKey.verify_eq_ok.mp verifies
  rw [split, Steps.append_iff] at steps
  obtain ⟨v, first, rest⟩ := steps
  obtain ⟨r, step, -⟩ := Steps.cons_iff.mp rest
  obtain ⟨taken, unread, -, fits, -⟩ := takes_of_steps first
  obtain ⟨own, unread', -, fits', -⟩ := step.takes
  refine ⟨taken, own, r.reader.unread, ?_, length_of_fits fits, ?_⟩
  · rw [← unread', ← unread]
    rfl
  · rw [← fits'.length_eq, ← command.map_length_layout, List.length_map]

end Verifier

namespace CommitmentKey

variable {key : CommitmentKey Element} [DecidableEq Element] {script : Script}
  {receipt : Receipt} {report report' : Report} {before after : List Command} {command : Command}

/-- A second receipt is rejected at a claim when it begins like a first one that is accepted
    there, and the step of the claim cannot pass on both. -/
theorem rejects_of_differ (lawful : key.Lawful) {taken unread unread' : List (List String)}
    (split : script.commands = before ++ command :: after)
    (length : taken.length = Command.recordsOf before)
    (verifies : key.verify script ⟨taken ++ unread⟩ = .ok report)
    (accepted : report.Accepts (before.length + 1))
    (verifies' : key.verify script ⟨taken ++ unread'⟩ = .ok report')
    (differ : ∀ {v r r' : Verifier Element} {added added' : List Outcome},
      v.bindings.All key.group.Member → v.reader.unread = unread → Verifier.Step key command v r →
      Verifier.Step key command (v.leaving unread') r' → r.outcomes = v.outcomes ++ added →
      r'.outcomes = v.outcomes ++ added' → (∃ outcome ∈ added, outcome.passed = true) →
      ∀ outcome ∈ added', outcome.passed = false) :
    report'.Rejects (before.length + 1) := by
  obtain ⟨outcome, member, index, passed⟩ := accepted
  obtain ⟨v, r, r', added, added', left, first, step, step', adds, adds', here, here'⟩ :=
    Verifier.same_until split length verifies verifies'
  constructor
  · have subjects : report'.outcomes.map Outcome.subject = report.outcomes.map Outcome.subject :=
      (subjects_of_verify verifies').trans (subjects_of_verify verifies).symm
    have among : outcome.subject ∈ report'.outcomes.map Outcome.subject :=
      subjects ▸ List.mem_map_of_mem member
    obtain ⟨outcome', member', same⟩ := List.mem_map.mp among
    exact ⟨outcome', member', (congrArg Subject.index same).trans index⟩
  · intro outcome' member' index'
    exact differ (Verifier.genuine_of_steps lawful first) left step step' adds adds'
      ⟨outcome, here outcome member index, passed⟩ outcome' (here' outcome' member' index')

/-- Only claims are accepted. -/
theorem claimed_of_accepts (split : script.commands = before ++ command :: after)
    (verifies : key.verify script receipt = .ok report)
    (accepted : report.Accepts (before.length + 1)) : command.claimed?.isSome := by
  obtain ⟨last, steps, -, rfl⟩ := verify_eq_ok.mp verifies
  rw [split, Steps.append_iff] at steps
  obtain ⟨v, first, rest⟩ := steps
  obtain ⟨r, step, others⟩ := Steps.cons_iff.mp rest
  obtain ⟨-, added, adds, -⟩ := step.adds_outcome
  obtain ⟨outcome, member, index, -⟩ := accepted
  exact step.claims adds
    (Verifier.mem_added_of_index rfl rfl first step others adds member index)

theorem rejects_exchanged_field (lawful : key.Lawful)
    (verifies : key.verify script receipt = .ok report)
    (split : script.commands = before ++ command :: after)
    (accepted : report.Accepts (before.length + 1)) {place : Nat} {text : String}
    (changed : receipt.exchange (Command.proofRecord before command) place text ≠ receipt)
    (verifies' : key.verify script
      (receipt.exchange (Command.proofRecord before command) place text) = .ok report') :
    report'.Rejects (before.length + 1) := by
  have claimed := claimed_of_accepts split verifies accepted
  obtain ⟨taken, own, rest, records, length, size⟩ := Verifier.records_of_command split verifies
  obtain ⟨records'⟩ := receipt
  simp only at records
  subst records
  rw [Command.proofRecord, Command.recordsOf_append, ← length] at changed verifies'
  -- Where the command writes a single record, that is the proof.
  have single (fields : List String) (shape : Command.recordsOf [command] = 1) :
      Receipt.exchange ⟨taken ++ fields :: rest⟩ (taken.length + Command.recordsOf [command] - 1)
        place text = ⟨taken ++ fields.set place text :: rest⟩ := by
    rw [shape]
    exact Receipt.change_at taken fields rest _
  cases command with
  | equal name value =>
      obtain ⟨fields, rfl⟩ := List.length_eq_one_iff.mp size
      rw [List.singleton_append, single fields rfl] at changed verifies'
      refine rejects_of_differ lawful split length verifies accepted verifies' ?_
      intro v r r' added added' genuine left step step' adds adds' passed
      refine Verifier.equal_rejects_other_proof lawful genuine step left ?_ step' adds adds' passed
      exact fun same => changed (by rw [same])
  | same left right =>
      obtain ⟨fields, rfl⟩ := List.length_eq_one_iff.mp size
      rw [List.singleton_append, single fields rfl] at changed verifies'
      refine rejects_of_differ lawful split length verifies accepted verifies' ?_
      intro v r r' added added' genuine left step step' adds adds' passed
      refine Verifier.same_rejects_other_proof lawful genuine step left ?_ step' adds adds' passed
      exact fun same => changed (by rw [same])
  | square name source =>
      obtain ⟨opening, fields, rfl⟩ := List.length_eq_two.mp size
      have whole : Receipt.exchange ⟨taken ++ ([opening, fields] ++ rest)⟩
          (taken.length + Command.recordsOf [.square name source] - 1) place text =
            ⟨taken ++ opening :: fields.set place text :: rest⟩ := by
        have at_end := Receipt.change_at (taken ++ [opening]) fields rest fun fields =>
          fields.set place text
        rw [List.append_assoc, List.append_assoc, List.length_append] at at_end
        exact at_end
      rw [whole] at changed verifies'
      refine rejects_of_differ lawful split length verifies accepted verifies' ?_
      intro v r r' added added' genuine left step step' adds adds' passed
      refine Verifier.square_rejects_other_proof lawful genuine step left ?_ step' adds adds' passed
      exact fun same => changed (by rw [same]; rfl)
  | _ => cases claimed

theorem rejects_exchanged_commitment (lawful : key.Lawful)
    (verifies : key.verify script receipt = .ok report) {name source : String}
    (split : script.commands = before ++ .square name source :: after)
    (accepted : report.Accepts (before.length + 1)) {fields commitment : List String}
    {text : String} {k : Scalar}
    (proof : receipt.records[Command.proofRecord before (.square name source)]? = some fields)
    (challenge : fields[2]? = some text) (decodes : key.field.ofHex text = .ok k)
    (nonzero : k ≠ key.field.zero)
    (changed : receipt.change (Command.recordsOf before) (fun _ => commitment) ≠ receipt)
    (verifies' : key.verify script
      (receipt.change (Command.recordsOf before) fun _ => commitment) = .ok report') :
    report'.Rejects (before.length + 1) := by
  obtain ⟨taken, own, rest, records, length, size⟩ := Verifier.records_of_command split verifies
  obtain ⟨records'⟩ := receipt
  simp only at records
  subst records
  obtain ⟨opening, fields', rfl⟩ := List.length_eq_two.mp size
  have whole : Receipt.change ⟨taken ++ ([opening, fields'] ++ rest)⟩ taken.length
      (fun _ => commitment) = ⟨taken ++ commitment :: fields' :: rest⟩ :=
    Receipt.change_at taken opening (fields' :: rest) _
  rw [← length, whole] at changed verifies'
  have same : fields' = fields := by
    rw [Command.proofRecord, Command.recordsOf_append, ← length] at proof
    have position : taken.length + Command.recordsOf [.square name source] - 1 =
      taken.length + 1 := rfl
    rw [position, List.getElem?_append_right (Nat.le_add_right _ _), Nat.add_sub_cancel_left]
      at proof
    exact Option.some.inj proof
  subst same
  refine rejects_of_differ lawful split length verifies accepted verifies' ?_
  intro v r r' added added' genuine left step step' adds adds' passed
  refine Verifier.square_rejects_other_commitment lawful genuine step left challenge decodes
    nonzero ?_ step' adds adds' passed
  exact fun same => changed (by rw [same]; rfl)

/-- After a claim has passed, a receipt in which one field of its proof has been exchanged is
    refused or reported to fail at that claim. So is one with another new commitment in front of
    the proof of a square, unless its challenge is zero. -/
theorem tampering_is_noticed (lawful : key.Lawful)
    (verifies : key.verify script receipt = .ok report)
    (split : script.commands = before ++ command :: after)
    (accepted : report.Accepts (before.length + 1)) :
    (∀ place text report',
      receipt.exchange (Command.proofRecord before command) place text ≠ receipt →
      key.verify script (receipt.exchange (Command.proofRecord before command) place text) =
        .ok report' →
      report'.Rejects (before.length + 1)) ∧
    ∀ name source fields text k commitment report', command = .square name source →
      receipt.records[Command.proofRecord before command]? = some fields →
      fields[2]? = some text → key.field.ofHex text = .ok k → k ≠ key.field.zero →
      receipt.change (Command.recordsOf before) (fun _ => commitment) ≠ receipt →
      key.verify script (receipt.change (Command.recordsOf before) fun _ => commitment) =
        .ok report' →
      report'.Rejects (before.length + 1) := by
  constructor
  · intro place text report' changed verifies'
    exact rejects_exchanged_field lawful verifies split accepted changed verifies'
  · rintro name source fields text k commitment report' rfl proof challenge decodes nonzero
      changed verifies'
    exact rejects_exchanged_commitment lawful verifies split accepted proof challenge decodes
      nonzero changed verifies'

open ResidueGroup in
/-- The verifier gives a report on every receipt like the one of the square, and the verdict in
    it is the one on its proof. -/
theorem exists_report_of_square (text : String) (fields : List String) {squared : Residue}
    {proof : SquareProof Residue} (readSquared : small.ops.ofHex text = .ok squared)
    (read : SquareProof.ofFields (small.keyOf ⟨3⟩) fields = .ok proof) :
    ∃ outcome,
      (small.keyOf ⟨3⟩).verify squareScript ⟨[["06"], [text], fields]⟩ = .ok ⟨[outcome]⟩ ∧
        outcome.index = 2 ∧
        outcome.passed = (SquareProof.verify (small.keyOf ⟨3⟩)
          ((small.keyOf ⟨3⟩).history.message "commitment" [6]) ⟨6⟩ squared proof).1 := by
  have source : small.ops.ofHex "06" = .ok ⟨6⟩ := rfl
  have steps : Steps (Verifier.Step (small.keyOf ⟨3⟩)) squareScript.commands
      (.start (small.keyOf ⟨3⟩) ⟨[["06"], [text], fields]⟩) _ :=
    .cons (.input rfl source) (.cons (.square rfl rfl readSquared read) .nil)
  exact ⟨_, verify_eq_ok.mpr ⟨_, steps, rfl, rfl⟩, rfl, rfl⟩

open ResidueGroup in
theorem tampering_is_noticed_small :
    ∃ report report' report'',
      (small.keyOf ⟨3⟩).verify squareScript squareReceipt = .ok report ∧ report.Accepts 2 ∧
        (small.keyOf ⟨3⟩).verify squareScript (squareReceipt.exchange 2 3 "08") = .ok report' ∧
        report'.Rejects 2 ∧
        (small.keyOf ⟨3⟩).verify squareScript (squareReceipt.change 1 fun _ => ["04"]) =
          .ok report'' ∧
        report''.Rejects 2 := by
  obtain ⟨outcome, verifies, index, verdict⟩ :=
    exists_report_of_square "09" ["0c", "08", "05", "09", "03", "03"] rfl rfl
  obtain ⟨outcome', verifies', -⟩ :=
    exists_report_of_square "09" ["0c", "08", "05", "08", "03", "03"] rfl rfl
  obtain ⟨outcome'', verifies'', -⟩ :=
    exists_report_of_square "04" ["0c", "08", "05", "09", "03", "03"] rfl rfl
  have accepted : Report.Accepts ⟨[outcome]⟩ 2 :=
    ⟨outcome, List.mem_singleton.mpr rfl, index, verdict.trans verify_squareReceipt⟩
  have split : squareScript.commands = [.input "a"] ++ .square "b" "a" :: [] := rfl
  obtain ⟨field, commitment⟩ := tampering_is_noticed small_lawful verifies split accepted
  exact ⟨_, _, _, verifies, accepted, verifies', field 3 "08" _ (by decide) verifies', verifies'',
    commitment "b" "a" _ "05" ⟨5⟩ ["04"] _ rfl rfl rfl rfl (by decide) (by decide) verifies''⟩

end CommitmentKey

end CommitScript

import CommitScript.Proofs.ProveVerify
import CommitScript.Proofs.ReducedOpenings
import CommitScript.Proofs.ResidueKeys
import CommitScript.Proofs.VerifierRuns
import CommitScript.Proofs.WeightedSums

/-! # Prover and verifier in lockstep

A verifier that reads what a prover has written follows it command by command. At every point
it has bound the commitments of the prover's openings to the same names, its history is the
prover's, and it has taken as many records as the prover had written. A claim that is false
does not part them.
-/

namespace CommitScript

open Success

variable {Element : Type}

/-- What a prover and a verifier that reads a receipt have in common after the same commands. -/
structure Lockstep (key : CommitmentKey Element) (receipt : Receipt) (prover : Prover Element)
    (verifier : Verifier Element) : Prop where
  bindings : verifier.bindings = prover.bindings.map (Opening.commitment key)
  history : verifier.history = prover.history
  taken : verifier.reader.taken = prover.records.length
  records : prover.records ++ verifier.reader.unread = receipt.records

/-- The verdict that a claim deserves: a square is always one, two names have to share their
    secret, and a name has to hide the claimed value unless the challenge is zero. -/
def Prover.Deserves (task : ProverTask Element) (prover : Prover Element) : Command → Prop
  | .equal name value => ∃ opening, prover.bindings.get? name = some opening ∧
      ((opening.secret.value : Int) = value % task.key.field.modulus ∨
        (prover.valueProof task value opening).1.challenge = task.key.field.zero)
  | .square _ _ => True
  | .same left right => ∃ first second, prover.bindings.get? left = some first ∧
      prover.bindings.get? right = some second ∧ first.secret = second.secret
  | _ => False

theorem Prover.Step.writes {task : ProverTask Element} {command : Command}
    {p p' : Prover Element} (step : Prover.Step task command p p') :
    ∃ written, p'.records = p.records ++ written := by
  cases step with
  | input => exact ⟨_, rfl⟩
  | commit => exact ⟨_, rfl⟩
  | sum => exact ⟨[], (List.append_nil _).symm⟩
  | equal => exact ⟨_, rfl⟩
  | square => exact ⟨_, rfl⟩
  | same => exact ⟨_, rfl⟩
  | log => exact ⟨[], (List.append_nil _).symm⟩

/-- A prover only ever adds records. -/
theorem Prover.writes_of_steps {task : ProverTask Element} {commands : List Command}
    {p p' : Prover Element} (steps : Steps (Prover.Step task) commands p p') :
    ∃ written, p'.records = p.records ++ written := by
  induction steps with
  | nil => exact ⟨[], (List.append_nil _).symm⟩
  | cons first _ ih =>
      obtain ⟨written, records⟩ := first.writes
      obtain ⟨written', records'⟩ := ih
      exact ⟨written ++ written', by rw [records', records, List.append_assoc]⟩

namespace Lockstep

variable {key : CommitmentKey Element} {receipt : Receipt} {p : Prover Element}
  {v : Verifier Element}

theorem start : Lockstep key receipt (.start key) (.start key receipt) where
  bindings := (Table.map_empty _).symm
  history := rfl
  taken := rfl
  records := rfl

/-- The verifier's next records are the ones that the prover writes next. -/
theorem unread (lockstep : Lockstep key receipt p v) {written rest : List (List String)}
    (h : (p.records ++ written) ++ rest = receipt.records) :
    v.reader.unread = written ++ rest := by
  rw [← lockstep.records, List.append_assoc] at h
  exact (List.append_cancel_left h).symm

/-- What a name stands for with the prover, the verifier knows the commitment of. -/
theorem found (lockstep : Lockstep key receipt p v) {name : String} {opening : Opening}
    (h : p.bindings.get? name = some opening) :
    v.bindings.get? name = some (opening.commitment key) := by
  rw [lockstep.bindings, Table.get?_map, h, Option.map_some]

/-- Binding a name to an opening and to its commitment keeps the bindings in step. -/
theorem bindings_insert (lockstep : Lockstep key receipt p v) (name : String)
    (opening : Opening) :
    v.bindings.insert name (opening.commitment key) =
      (p.bindings.insert name opening).map (Opening.commitment key) := by
  rw [Table.map_insert, lockstep.bindings]

/-- Taking as many records as are written keeps the positions in step. -/
theorem taken_add (lockstep : Lockstep key receipt p v) (written : List (List String)) :
    v.reader.taken + written.length = (p.records ++ written).length := by
  rw [List.length_append, lockstep.taken]

variable {task : ProverTask Element} {command : Command} {p' : Prover Element}
  {rest : List (List String)}

/-- A verifier that reads a fresh commitment stays in lockstep. -/
theorem publish (lockstep : Lockstep task.key receipt p v) {name : String} {secret : Scalar}
    (written : (p.started.published task name secret).records ++ rest = receipt.records)
    (opcode : Opcode) :
    let commitment := (p.started.fresh task secret).commitment task.key
    v.reader.unread = [task.key.group.toHex commitment] :: rest ∧
      Lockstep task.key receipt (p.started.published task name secret)
        (v.started.received task.key opcode name rest commitment) where
  left := lockstep.unread written
  right :=
    { bindings := lockstep.bindings_insert name _
      history := by
        change v.history.message _ _ = p.history.message _ _
        rw [lockstep.history]
      taken := lockstep.taken_add [_]
      records := written }

variable [DecidableEq Element]

/-- Whether a verifier can take the step that a prover takes, staying in lockstep and giving the
    verdict that is deserved. -/
def Follows (task : ProverTask Element) (receipt : Receipt) (command : Command)
    (p p' : Prover Element) (v : Verifier Element) : Prop :=
  ∃ v' added, Verifier.Step task.key command v v' ∧ Lockstep task.key receipt p' v' ∧
    v'.outcomes = v.outcomes ++ added ∧
    ∀ outcome ∈ added, (outcome.passed = true ↔ p.Deserves task command)

theorem follows_equal (lawful : task.key.Lawful) (lockstep : Lockstep task.key receipt p v)
    (reduced : p.bindings.All (Opening.Reduced task.key.field)) {name : String} {value : Int}
    {opening : Opening} (found : p.bindings.get? name = some opening)
    (written : (p.started.claimedEqual task name value opening).records ++ rest =
      receipt.records) :
    Follows task receipt (.equal name value) p (p.started.claimedEqual task name value opening)
      v := by
  have read := (ValueProof.ofFields_eq_ok lawful.group.canonical).mpr
    ⟨ValueProof.prove_valid lawful p.history (opening.commitment task.key)
      (task.key.field.ofInt value) opening.blinding (p.scalarAt task 0), rfl⟩
  refine ⟨_, _, .equal (lockstep.found found) (lockstep.unread written) read, ?_, rfl, ?_⟩
  · exact
      { bindings := lockstep.bindings
        history := by
          change (ValueProof.verify task.key v.history _ _ _).2 =
            (p.valueProof task value opening).2
          rw [lockstep.history]
          exact ValueProof.verify_prove_history _ _ _ _ _
        taken := lockstep.taken_add [_]
        records := written }
  · intro outcome member
    rw [List.mem_singleton.mp member]
    have verdict := ValueProof.verify_prove lawful p.history (lawful.commitment_member opening)
      (task.key.field.ofInt value) opening.blinding (p.scalarAt task 0)
    rw [Opening.commitment, lawful.commit_inj_secret (reduced name opening found).secret
      (task.key.field.reduced_ofInt value), ScalarField.eq_ofInt_iff] at verdict
    change (ValueProof.verify task.key v.history _ _ _).1 = true ↔ _
    rw [lockstep.history]
    refine verdict.trans ⟨fun deserved => ⟨opening, found, deserved.symm⟩, ?_⟩
    rintro ⟨other, lookup, deserved⟩
    cases found.symm.trans lookup
    exact deserved.symm

theorem follows_square (lawful : task.key.Lawful) (lockstep : Lockstep task.key receipt p v)
    {name source : String} {opening : Opening}
    (found : p.bindings.get? source = some opening)
    (written : (p.started.claimedSquare task name source opening).records ++ rest =
      receipt.records) :
    Follows task receipt (.square name source) p
      (p.started.claimedSquare task name source opening) v := by
  have member := lawful.commitment_member opening
  have readSquared := lawful.group.ofHex_eq_ok.mpr ⟨SquareProof.squareOf_member lawful member
    opening.secret (p.nextNonces task), rfl⟩
  have read := (SquareProof.ofFields_eq_ok lawful.group.canonical).mpr
    ⟨SquareProof.prove_valid lawful p.history member opening.secret opening.blinding
      (p.nextNonces task), rfl⟩
  refine ⟨_, _, .square (lockstep.found found) (lockstep.unread written) readSquared read, ?_,
    rfl, ?_⟩
  · exact
      { bindings := by
          have squared := SquareProof.squareOf_commit lawful opening.secret opening.blinding
            (p.nextNonces task)
          change v.bindings.insert name (SquareProof.squareOf task.key (opening.commitment task.key)
            opening.secret (p.nextNonces task)) = (p.bindings.insert name _).map _
          rw [← lockstep.bindings_insert]
          exact congrArg (v.bindings.insert name) squared
        history := by
          change (SquareProof.verify task.key v.history _ _ _).2 = (p.squareProof task opening).2
          rw [lockstep.history]
          exact SquareProof.verify_prove_history _ _ _ _ _
        taken := lockstep.taken_add [_, _]
        records := written }
  · intro outcome added
    rw [List.mem_singleton.mp added]
    have verdict := SquareProof.verify_prove lawful p.history member opening.secret
      opening.blinding (p.nextNonces task)
    change (SquareProof.verify task.key v.history _ _ _).1 = true ↔ _
    rw [lockstep.history]
    exact iff_of_true (verdict.mpr (.inr rfl)) trivial

theorem follows_same (lawful : task.key.Lawful) (lockstep : Lockstep task.key receipt p v)
    (reduced : p.bindings.All (Opening.Reduced task.key.field)) {left right : String}
    {first second : Opening}
    (foundLeft : p.bindings.get? left = some first)
    (foundRight : p.bindings.get? right = some second)
    (written : (p.started.claimedSame task left right first second).records ++ rest =
      receipt.records) :
    Follows task receipt (.same left right) p
      (p.started.claimedSame task left right first second) v := by
  have valid : (p.sameProof task first second).1.Valid task.key :=
    SameProof.prove_valid p.history _ _ _ _
  have read := SameProof.ofFields_eq_ok.mpr ⟨valid, rfl⟩
  refine ⟨_, _, .same (lockstep.found foundLeft) (lockstep.found foundRight)
    (lockstep.unread written) read, ?_, rfl, ?_⟩
  · exact
      { bindings := lockstep.bindings
        history := by
          change (SameProof.verify task.key v.history _ _ _).2 =
            (p.sameProof task first second).2
          rw [lockstep.history]
          exact SameProof.verify_prove_history _ _ _ _ _
        taken := lockstep.taken_add [_]
        records := written }
  · intro outcome member
    rw [List.mem_singleton.mp member]
    have verdict := SameProof.verify_prove lawful p.history (t := first.blinding)
      (reduced left first foundLeft).secret (reduced right second foundRight).secret
      (reduced right second foundRight).blinding
    change (SameProof.verify task.key v.history _ _ _).1 = true ↔ _
    rw [lockstep.history]
    refine verdict.trans ⟨fun deserved => ⟨first, second, foundLeft, foundRight, deserved⟩, ?_⟩
    rintro ⟨first', second', lookupLeft, lookupRight, deserved⟩
    cases foundLeft.symm.trans lookupLeft
    cases foundRight.symm.trans lookupRight
    exact deserved

/-- When the prover takes a step whose records are in the receipt, the verifier takes one too,
    and its verdict is the deserved one. -/
theorem step (lawful : task.key.Lawful) (lockstep : Lockstep task.key receipt p v)
    (reduced : p.bindings.All (Opening.Reduced task.key.field))
    (step : Prover.Step task command p p')
    (written : p'.records ++ rest = receipt.records) :
    Follows task receipt command p p' v := by
  have nothing : ∀ outcome ∈ ([] : List Outcome),
      (outcome.passed = true ↔ p.Deserves task command) :=
    fun _ member => absurd member List.not_mem_nil
  have published (secret : Scalar) : task.key.group.ofHex (task.key.group.toHex
      ((p.started.fresh task secret).commitment task.key)) = .ok _ :=
    lawful.group.ofHex_eq_ok.mpr ⟨lawful.commitment_member _, rfl⟩
  cases step with
  | input =>
      obtain ⟨unread, after⟩ := lockstep.publish written .input
      exact ⟨_, [], .input unread (published _), after, (List.append_nil _).symm, nothing⟩
  | commit =>
      obtain ⟨unread, after⟩ := lockstep.publish written .commit
      exact ⟨_, [], .commit unread (published _), after, (List.append_nil _).symm, nothing⟩
  | @sum _ name terms opening combines =>
      have combined := lawful.combineCommitments_map p.bindings terms
      rw [← lockstep.bindings, combines] at combined
      refine ⟨_, [], .sum combined, ?_, (List.append_nil _).symm, nothing⟩
      exact
        { bindings := lockstep.bindings_insert name opening
          history := lockstep.history
          taken := lockstep.taken
          records := lockstep.records }
  | equal found => exact lockstep.follows_equal lawful reduced found written
  | square found => exact lockstep.follows_square lawful found written
  | same foundLeft foundRight =>
      exact lockstep.follows_same lawful reduced foundLeft foundRight written
  | log =>
      exact ⟨_, [], .log, ⟨lockstep.bindings, lockstep.history, lockstep.taken, lockstep.records⟩,
        (List.append_nil _).symm, nothing⟩

/-- A verifier follows a prover through any commands whose records are in the receipt. -/
theorem steps (lawful : task.key.Lawful) {commands : List Command}
    (lockstep : Lockstep task.key receipt p v)
    (reduced : p.bindings.All (Opening.Reduced task.key.field))
    (steps : Steps (Prover.Step task) commands p p')
    (written : p'.records ++ rest = receipt.records) :
    ∃ v', Steps (Verifier.Step task.key) commands v v' ∧ Lockstep task.key receipt p' v' := by
  induction steps generalizing v with
  | nil => exact ⟨v, .nil, lockstep⟩
  | cons first others ih =>
      obtain ⟨later, records⟩ := Prover.writes_of_steps others
      rw [records, List.append_assoc] at written
      obtain ⟨r, -, follows, after, -⟩ := lockstep.step lawful reduced first written
      rw [← List.append_assoc, ← records] at written
      obtain ⟨v', follows', after'⟩ := ih after (first.reduced reduced) written
      exact ⟨v', .cons follows follows', after'⟩

end Lockstep

/-- At every point of a script that the prover has run through, a verifier of its receipt has
    bound the same names, to the commitments of the prover's openings, has said and drawn the
    same in its history, and stands in the receipt where the prover stood. -/
theorem ProverTask.lockstep_of_prove [DecidableEq Element] {task : ProverTask Element}
    (lawful : task.key.Lawful) {script : Script} {receipt : Receipt}
    (proves : task.prove script = .ok receipt) (count : Nat) :
    ∃ prover verifier,
      (script.commands.take count).forM (Prover.execute task) (.start task.key) =
          .ok () prover ∧
        (script.commands.take count).forM (Verifier.execute task.key)
          (.start task.key receipt) = .ok () verifier ∧
        verifier.bindings.entries.map Prod.fst = prover.bindings.entries.map Prod.fst ∧
        (∀ name, verifier.bindings.get? name =
          (prover.bindings.get? name).map (Opening.commitment task.key)) ∧
        verifier.history.entries = prover.history.entries ∧
        verifier.reader.taken = prover.records.length ∧
        prover.records ++ verifier.reader.unread = receipt.records := by
  obtain ⟨last, steps, rfl⟩ := ProverTask.prove_eq_ok.mp proves
  rw [← List.take_append_drop count script.commands, Steps.append_iff] at steps
  obtain ⟨prover, before, after⟩ := steps
  obtain ⟨later, records⟩ := Prover.writes_of_steps after
  have nothing : (Prover.start task.key).bindings.All (Opening.Reduced task.key.field) :=
    Table.all_empty
  have start : Lockstep task.key ⟨last.records⟩ (.start task.key) (.start task.key _) :=
    Lockstep.start
  obtain ⟨verifier, follows, lockstep⟩ := start.steps lawful nothing before records.symm
  refine ⟨prover, verifier, Prover.forM_eq_ok.mpr before, Verifier.forM_eq_ok.mpr follows,
    ?_, ?_, ?_, lockstep.taken, lockstep.records⟩
  · rw [lockstep.bindings, Table.names_map]
  · intro name
    rw [lockstep.bindings, Table.get?_map]
  · rw [lockstep.history]

theorem ProverTask.lockstep_of_prove_small :
    ∃ receipt prover verifier,
      ResidueGroup.smallTask.prove ⟨[.input "a", .same "a" "a"]⟩ = .ok receipt ∧
        ([.input "a"] : List Command).forM (Prover.execute ResidueGroup.smallTask)
          (.start ResidueGroup.smallTask.key) = .ok () prover ∧
        ([.input "a"] : List Command).forM (Verifier.execute ResidueGroup.smallTask.key)
          (.start ResidueGroup.smallTask.key receipt) = .ok () verifier ∧
        verifier.bindings.get? "a" =
          (prover.bindings.get? "a").map (Opening.commitment ResidueGroup.smallTask.key) ∧
        verifier.reader.taken = prover.records.length := by
  have proves : ResidueGroup.smallTask.prove ⟨[.input "a", .same "a" "a"]⟩ = .ok _ := rfl
  obtain ⟨prover, verifier, runs, follows, -, bindings, -, taken, -⟩ :=
    ResidueGroup.smallTask.lockstep_of_prove ResidueGroup.small_lawful proves 1
  exact ⟨_, prover, verifier, proves, runs, follows, bindings "a", taken⟩

end CommitScript

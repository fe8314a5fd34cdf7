import CommitScript.Proofs.ProverFaults
import CommitScript.Proofs.ResidueKeys
import CommitScript.Tool.Basic

/-! # Randomness of a prover

The tape falls into blocks, each as wide as a scalar takes. A prover takes them one after the
other, so that every random scalar is the scalar of a block of its own. What the scalars are used
for is said without any tape: a prover is given a supply of scalars, and each command spends the
first ones of it.
-/

namespace CommitScript

open Success

variable {Element : Type}

/-- The scalar of a block of the tape. The blocks lie side by side from the start of the tape. -/
def Tape.block (tape : Tape) (field : ScalarField) (place : Nat) : Scalar :=
  field.reduce (Bytes.toNatBig (tape.read (place * field.wideWidth) field.wideWidth))

def Tape.blocks (tape : Tape) (field : ScalarField) (first count : Nat) : List Scalar :=
  (List.range' first count).map (tape.block field)

def Command.draws (commands : List Command) : Nat :=
  (commands.map drawCount).sum

theorem Command.draws_cons (command : Command) (commands : List Command) :
    draws (command :: commands) = command.drawCount + draws commands := by
  rw [draws, List.map_cons, List.sum_cons]
  rfl

/-- Inputs and expressions take one scalar, and so do claimed values; squares take four. -/
theorem Command.draws_eq (commands : List Command) :
    draws commands = (commands.map opcode).count .input + (commands.map opcode).count .commit +
      (commands.map opcode).count .equal + 4 * (commands.map opcode).count .square := by
  induction commands with
  | nil => rfl
  | cons command commands ih =>
      rw [draws_cons, ih, List.map_cons]
      cases command <;> simp [drawCount, opcode] <;> omega

namespace Tape

theorem blocks_add (tape : Tape) (field : ScalarField) (first count count' : Nat) :
    tape.blocks field first (count + count') =
      tape.blocks field first count ++ tape.blocks field (first + count) count' := by
  rw [blocks, blocks, blocks, ← List.map_append, List.range'_append_1]

theorem blocks_congr {tape tape' : Tape} {field : ScalarField} {first count : Nat}
    (same : ∀ i < (first + count) * field.wideWidth, tape i = tape' i) :
    tape.blocks field first count = tape'.blocks field first count := by
  refine List.map_congr_left fun place member => ?_
  obtain ⟨-, before⟩ := List.mem_range'_1.mp member
  -- The last byte of a block in the row comes before the end of the row.
  have inside : place * field.wideWidth + field.wideWidth ≤ (first + count) * field.wideWidth := by
    rw [← Nat.succ_mul]
    exact Nat.mul_le_mul_right _ before
  have bytes : tape.read (place * field.wideWidth) field.wideWidth =
      tape'.read (place * field.wideWidth) field.wideWidth :=
    List.map_congr_left fun i member => same _ (by have := List.mem_range.mp member; omega)
  rw [block, bytes, block]

end Tape

namespace Prover

/-- A prover that has bound a name to a fresh opening and published the commitment. -/
def withCommitment (key : CommitmentKey Element) (prover : Prover Element) (name : String)
    (opening : Opening) : Prover Element :=
  let commitment := opening.commitment key
  { bindings := prover.bindings.insert name opening
    drawn := prover.drawn + key.field.wideWidth
    history := prover.history.message "commitment" (key.group.encode commitment)
    records := prover.records ++ [[key.group.toHex commitment]]
    executed := prover.executed + 1
    events := prover.events ++ publishEvents name }

/-- A prover that has proved a value with a nonce. -/
def withValue (key : CommitmentKey Element) (prover : Prover Element) (name : String)
    (value : Int) (opening : Opening) (nonce : Scalar) : Prover Element :=
  let claimed := key.field.ofInt value
  let proof := ValueProof.prove key prover.history (opening.commitment key) claimed
    opening.blinding nonce
  { prover with
    drawn := prover.drawn + key.field.wideWidth
    history := proof.2
    records := prover.records ++ [proof.1.toFields key]
    executed := prover.executed + 1
    events := prover.events ++ equalEvents name value (opening.secret = claimed) }

/-- A prover that has bound a name to a square and proved the relation with some nonces. -/
def withSquare (key : CommitmentKey Element) (prover : Prover Element) (name source : String)
    (opening : Opening) (nonces : SquareNonces) : Prover Element :=
  let squared := SquareProof.prove key prover.history (opening.commitment key) opening.secret
    opening.blinding nonces
  { bindings := prover.bindings.insert name
      { secret := squared.1.secret, blinding := squared.1.blinding }
    drawn := prover.drawn + 4 * key.field.wideWidth
    history := squared.2
    records := prover.records ++
      [[key.group.toHex squared.1.commitment], squared.1.proof.toFields key]
    executed := prover.executed + 1
    events := prover.events ++ squareEvents name source }

/-- A prover that has proved, without a nonce, that two names share a secret. -/
def withSame (key : CommitmentKey Element) (prover : Prover Element) (left right : String)
    (first second : Opening) : Prover Element :=
  let proof := SameProof.prove key prover.history (first.commitment key) (second.commitment key)
    first.blinding second.blinding
  { prover with
    history := proof.2
    records := prover.records ++ [proof.1.toFields key]
    executed := prover.executed + 1
    events := prover.events ++ sameEvents left right (first.secret = second.secret) }

/-- What one command does to a prover that holds a supply of scalars. A fresh commitment spends
    one as its blinding, a claimed value one as its nonce. A square spends four: the blinding of
    the square, the nonce for the secret, and the nonces for both blindings. -/
inductive Spends (key : CommitmentKey Element) (inputs : Inputs) :
    Command → Prover Element × List Scalar → Prover Element × List Scalar → Prop
  | input {prover : Prover Element} {supply : List Scalar} {name : String} {value : Int}
      {blinding : Scalar} (given : inputs.get? name = some value) :
      Spends key inputs (.input name) (prover, blinding :: supply)
        (prover.withCommitment key name ⟨key.field.ofInt value, blinding⟩, supply)
  | commit {prover : Prover Element} {supply : List Scalar} {name expression : String}
      {secret blinding : Scalar}
      (evaluates : evaluate key.field prover.bindings expression = .ok secret) :
      Spends key inputs (.commit name expression) (prover, blinding :: supply)
        (prover.withCommitment key name ⟨secret, blinding⟩, supply)
  | sum {prover : Prover Element} {supply : List Scalar} {name : String}
      {terms : List (Weight × String)} {opening : Opening}
      (combines : combineOpenings key.field prover.bindings terms = .ok opening) :
      Spends key inputs (.sum name terms) (prover, supply)
        ((prover.started.told (sumEvents name terms)).bound name opening, supply)
  | equal {prover : Prover Element} {supply : List Scalar} {name : String} {value : Int}
      {opening : Opening} {nonce : Scalar} (found : prover.bindings.get? name = some opening) :
      Spends key inputs (.equal name value) (prover, nonce :: supply)
        (prover.withValue key name value opening nonce, supply)
  | square {prover : Prover Element} {supply : List Scalar} {name source : String}
      {opening : Opening} {blinding secretNonce sourceNonce squareNonce : Scalar}
      (found : prover.bindings.get? source = some opening) :
      Spends key inputs (.square name source)
        (prover, blinding :: secretNonce :: sourceNonce :: squareNonce :: supply)
        (prover.withSquare key name source opening
          ⟨blinding, secretNonce, sourceNonce, squareNonce⟩, supply)
  | same {prover : Prover Element} {supply : List Scalar} {left right : String}
      {first second : Opening} (foundLeft : prover.bindings.get? left = some first)
      (foundRight : prover.bindings.get? right = some second) :
      Spends key inputs (.same left right) (prover, supply)
        (prover.withSame key left right first second, supply)
  | log {prover : Prover Element} {supply : List Scalar} :
      Spends key inputs .log (prover, supply)
        (prover.started.told (bindingEvents prover.bindings.entries), supply)

variable {task : ProverTask Element} {p p' : Prover Element} {command : Command}
  {commands : List Command} {block : Nat} {supply : List Scalar}

/-- Whether a prover stands at the start of a block of the tape. -/
def AtBlock (task : ProverTask Element) (block : Nat) (prover : Prover Element) : Prop :=
  prover.drawn = block * task.key.field.wideWidth

namespace AtBlock

/-- The scalars that a prover comes to are those of the next blocks. -/
theorem scalarAt_eq (h : AtBlock task block p) (place : Nat) :
    p.started.scalarAt task place = task.tape.block task.key.field (block + place) := by
  have position : p.started.drawn = block * task.key.field.wideWidth := h
  rw [scalarAt, Tape.block, position, Nat.add_mul]
  rfl

theorem published_eq (h : AtBlock task block p) (name : String) (secret : Scalar) :
    p.started.published task name secret =
      p.withCommitment task.key name ⟨secret, task.tape.block task.key.field block⟩ := by
  rw [published, fresh, h.scalarAt_eq, drew_one]
  rfl

theorem claimedEqual_eq (h : AtBlock task block p) (name : String) (value : Int)
    (opening : Opening) :
    p.started.claimedEqual task name value opening =
      p.withValue task.key name value opening (task.tape.block task.key.field block) := by
  rw [claimedEqual, valueProof, h.scalarAt_eq, drew_one]
  rfl

theorem claimedSquare_eq (h : AtBlock task block p) (name source : String) (opening : Opening) :
    p.started.claimedSquare task name source opening =
      p.withSquare task.key name source opening
        ⟨task.tape.block task.key.field block, task.tape.block task.key.field (block + 1),
          task.tape.block task.key.field (block + 2),
          task.tape.block task.key.field (block + 3)⟩ := by
  rw [claimedSquare, squareProof, nextNonces, h.scalarAt_eq, h.scalarAt_eq, h.scalarAt_eq,
    h.scalarAt_eq]
  rfl

/-- A command takes as many blocks as it needs scalars. -/
theorem step (h : AtBlock task block p) (step : Step task command p p') :
    AtBlock task (block + command.drawCount) p' := by
  have drawn : p.drawn = block * task.key.field.wideWidth := h
  rw [AtBlock, Nat.add_mul, ← drawn]
  cases step with
  | input =>
      rw [h.published_eq, Command.drawCount, Nat.one_mul]
      rfl
  | commit =>
      rw [h.published_eq, Command.drawCount, Nat.one_mul]
      rfl
  | sum =>
      rw [Command.drawCount, Nat.zero_mul]
      rfl
  | equal =>
      rw [h.claimedEqual_eq, Command.drawCount, Nat.one_mul]
      rfl
  | square =>
      rw [h.claimedSquare_eq]
      rfl
  | same =>
      rw [Command.drawCount, Nat.zero_mul]
      rfl
  | log =>
      rw [Command.drawCount, Nat.zero_mul]
      rfl

/-- With the scalars of the next blocks in hand a prover needs no tape. -/
theorem step_iff (h : AtBlock task block p) :
    Step task command p p' ↔ Spends task.key task.inputs command
      (p, task.tape.blocks task.key.field block command.drawCount ++ supply) (p', supply) := by
  constructor
  · intro step
    cases step with
    | input given =>
        rw [h.published_eq]
        exact .input given
    | commit evaluates =>
        rw [h.published_eq]
        exact .commit evaluates
    | sum combines => exact .sum combines
    | equal found =>
        rw [h.claimedEqual_eq]
        exact .equal found
    | square found =>
        rw [h.claimedSquare_eq]
        exact .square found
    | same foundLeft foundRight => exact .same foundLeft foundRight
    | log => exact .log
  · intro spends
    -- Once the command is known, so is how much of the supply it spends.
    cases command with
    | input name =>
        cases spends with
        | input given =>
            rw [← h.published_eq]
            exact .input given
    | commit name expression =>
        cases spends with
        | commit evaluates =>
            rw [← h.published_eq]
            exact .commit evaluates
    | sum name terms =>
        cases spends with
        | sum combines => exact .sum combines
    | equal name value =>
        cases spends with
        | equal found =>
            rw [← h.claimedEqual_eq]
            exact .equal found
    | square name source =>
        cases spends with
        | square found =>
            rw [← h.claimedSquare_eq]
            exact .square found
    | same left right =>
        cases spends with
        | same foundLeft foundRight => exact .same foundLeft foundRight
    | log =>
        cases spends
        exact .log

theorem steps (h : AtBlock task block p) (steps : Steps (Step task) commands p p') :
    AtBlock task (block + Command.draws commands) p' := by
  induction steps generalizing block with
  | nil => exact h
  | @cons command commands _ _ _ first _ ih =>
      rw [Command.draws_cons, ← Nat.add_assoc]
      exact ih (h.step first)

/-- A run spends the scalars of its blocks, in order. -/
theorem spends_of_steps (h : AtBlock task block p) (steps : Steps (Step task) commands p p') :
    Steps (Spends task.key task.inputs) commands
      (p, task.tape.blocks task.key.field block (Command.draws commands) ++ supply)
      (p', supply) := by
  induction steps generalizing block with
  | nil => exact .nil
  | cons first _ ih =>
      rw [Command.draws_cons, Tape.blocks_add, List.append_assoc]
      exact .cons (h.step_iff.mp first) (ih (h.step first))

/-- A step reads no byte behind its blocks. -/
theorem step_retaped (h : AtBlock task block p) (step : Step task command p p') {tape : Tape}
    (same : ∀ i < p'.drawn, tape i = task.tape i) : Step { task with tape } command p p' := by
  have drawn : p'.drawn = (block + command.drawCount) * task.key.field.wideWidth := h.step step
  have blocks : tape.blocks task.key.field block command.drawCount =
      task.tape.blocks task.key.field block command.drawCount :=
    Tape.blocks_congr fun i before => same i (drawn ▸ before)
  have there : AtBlock { task with tape } block p := h
  have spends : Spends _ _ _ (_, _ ++ []) (_, []) := h.step_iff.mp step
  rw [← blocks] at spends
  exact there.step_iff.mpr spends

end AtBlock

/-- Whether a command fails has nothing to do with randomness. -/
theorem Fails.retaped {fault : RunError} (fails : Fails task p command fault) (tape : Tape) :
    Fails { task with tape } p command fault := by
  cases fails with
  | input missing => exact .input missing
  | commit valueless => exact .commit valueless
  | sum sumless => exact .sum sumless
  | equal unbound => exact .equal unbound
  | square unbound => exact .square unbound
  | left unbound => exact .left unbound
  | right found unbound => exact .right found unbound

theorem AtBlock.drawn_le (h : AtBlock task block p) (commands : List Command) :
    p.drawn ≤ (runPast task commands p).2.drawn := by
  have before : AtBlock task block (p.counting p.executed) := h
  have after := before.steps (steps_of_runPast commands p p.executed).2
  calc
    p.drawn = block * task.key.field.wideWidth := h
    _ ≤ _ := Nat.mul_le_mul_right _ (Nat.le_add_right _ _)
    _ = (runPast task commands p).2.drawn := after.symm

/-- Bytes behind the ones that were drawn make no difference. -/
theorem AtBlock.runPast_retaped (h : AtBlock task block p) {tape : Tape}
    (same : ∀ i < (runPast task commands p).2.drawn, tape i = task.tape i) :
    runPast { task with tape } commands p = runPast task commands p := by
  induction commands generalizing block p with
  | nil => rfl
  | cons command commands ih =>
      -- A step reads blocks that lie before the end of the run, a fault reads nothing.
      rcases step_or_fails task p command with ⟨after, step⟩ | ⟨fault, fails⟩
      · have ran := execute_eq_ok.mpr step
        simp only [runPast, ran] at same ⊢
        have later := h.step step
        have step' := h.step_retaped step fun i before =>
          same i (Nat.lt_of_lt_of_le before (later.drawn_le commands))
        simp only [execute_eq_ok.mpr step', ih later same]
      · have ran := execute_of_fails fails
        simp only [runPast, ran] at same ⊢
        rw [execute_of_fails (fails.retaped tape)]
        exact ih h same

theorem Step.lengths (step : Step task command p p') :
    p'.records.map List.length = p.records.map List.length ++ command.shape := by
  cases step with
  | input => exact List.map_append
  | commit => exact List.map_append
  | sum => exact (List.append_nil _).symm
  | equal => exact List.map_append
  | square => exact List.map_append
  | same => exact List.map_append
  | log => exact (List.append_nil _).symm

theorem lengths_of_steps (steps : Steps (Step task) commands p p') :
    p'.records.map List.length = p.records.map List.length ++ commands.flatMap Command.shape := by
  induction steps with
  | nil => exact (List.append_nil _).symm
  | cons first _ ih => rw [ih, first.lengths, List.flatMap_cons, List.append_assoc]

theorem runPast_of_forM_ok (ran : commands.forM (execute task) p = .ok () p') :
    runPast task commands p = (commands, p') := by
  induction commands generalizing p with
  | nil =>
      rw [forM_nil_eq_ok.mp ran]
      rfl
  | cons command commands ih =>
      obtain ⟨r, first, others⟩ := forM_cons_eq_ok.mp ran
      simp only [runPast, first, ih others]

/-- A run that stops at a fault passes over the last command that it has tried. -/
theorem runPast_of_forM_error {fault : RunError}
    (ran : commands.forM (execute task) p = .error fault p') :
    ∃ before command after, commands = before ++ command :: after ∧
      runPast task (before ++ [command]) p = (before, p') := by
  induction commands generalizing p with
  | nil => cases ran
  | cons command commands ih =>
      rcases forM_cons_eq_error.mp ran with fails | ⟨r, first, others⟩
      · refine ⟨[], command, commands, rfl, ?_⟩
        simp only [List.nil_append, runPast, fails]
      · obtain ⟨before, last, after, rfl, runs⟩ := ih others
        refine ⟨command :: before, last, after, rfl, ?_⟩
        simp only [List.cons_append, runPast, first, runs]

end Prover

namespace ProverTask

/-- The randomness of a prover that passes over faults. The bytes it has drawn are the first ones
    of the tape, one block for each scalar that its successful commands need, and it has spent the
    scalars of these blocks in order; its records have the shapes of these commands. No other byte
    of the tape makes a difference. A prover that stops at the first fault is one that has passed
    over the command at fault. -/
theorem randomness_is_accounted (task : ProverTask Element) :
    (∀ commands succeeded last,
      Prover.runPast task commands (.start task.key) = (succeeded, last) →
      ∃ count, count = (succeeded.map Command.opcode).count .input +
          (succeeded.map Command.opcode).count .commit +
          (succeeded.map Command.opcode).count .equal +
          4 * (succeeded.map Command.opcode).count .square ∧
        last.drawn = (task.key.field.width + 16) * count ∧
        Steps (Prover.Spends task.key task.inputs) succeeded
          (.start task.key, (List.range count).map (task.tape.block task.key.field))
          ({ last with executed := succeeded.length }, []) ∧
        last.records.map List.length = succeeded.flatMap Command.shape ∧
        ∀ tape : Tape, (∀ i < last.drawn, tape i = task.tape i) →
          Prover.runPast { task with tape } commands (.start task.key) = (succeeded, last)) ∧
    (∀ commands last,
      commands.forM (Prover.execute task) (.start task.key) = .ok () last →
      Prover.runPast task commands (.start task.key) = (commands, last)) ∧
    ∀ commands fault last,
      commands.forM (Prover.execute task) (.start task.key) = .error fault last →
      ∃ before command after, commands = before ++ command :: after ∧
        Prover.runPast task (before ++ [command]) (.start task.key) = (before, last) := by
  refine ⟨?_, fun _ _ => Prover.runPast_of_forM_ok, fun _ _ _ => Prover.runPast_of_forM_error⟩
  intro commands succeeded last runs
  obtain ⟨-, steps⟩ := Prover.steps_of_runPast commands (.start task.key) 0
  rw [runs, Nat.zero_add] at steps
  have alone : Steps (Prover.Step task) succeeded (.start task.key)
      (last.counting succeeded.length) := steps
  have start : Prover.AtBlock task 0 (.start task.key) := (Nat.zero_mul _).symm
  have stop := start.steps alone
  refine ⟨Command.draws succeeded, Command.draws_eq succeeded, ?_, ?_, ?_, ?_⟩
  · rw [Nat.mul_comm, ← Nat.zero_add (Command.draws succeeded)]
    exact stop
  · have spends : Steps _ succeeded (_, _ ++ []) (_, []) := start.spends_of_steps alone
    rw [List.append_nil, Tape.blocks, ← List.range_eq_range'] at spends
    exact spends
  · exact Prover.lengths_of_steps alone
  · intro tape same
    have drawn : ∀ i < (Prover.runPast task commands (.start task.key)).2.drawn,
        tape i = task.tape i := by
      rwa [runs]
    exact (start.runPast_retaped drawn).trans runs

theorem randomness_is_accounted_small :
    ∃ last, Prover.runPast ResidueGroup.smallTask
        [.square "b" "a", .input "a", .equal "a" 5, .square "b" "a", .same "a" "c", .log]
        (.start ResidueGroup.smallTask.key) =
          ([.input "a", .equal "a" 5, .square "b" "a", .log], last) ∧
      last.drawn = 6 * 17 ∧ last.records.map List.length = [1, 3, 1, 6] := by
  obtain ⟨accounts, -, -⟩ := randomness_is_accounted ResidueGroup.smallTask
  have runs : Prover.runPast ResidueGroup.smallTask
      [.square "b" "a", .input "a", .equal "a" 5, .square "b" "a", .same "a" "c", .log]
      (.start ResidueGroup.smallTask.key) =
        ([.input "a", .equal "a" 5, .square "b" "a", .log], _) := rfl
  obtain ⟨count, counted, drawn, -, lengths, -⟩ := accounts _ _ _ runs
  refine ⟨_, runs, ?_, lengths⟩
  rw [drawn, counted]
  rfl

end ProverTask

end CommitScript

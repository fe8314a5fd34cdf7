import CommitScript.Proofs.Checked.Protocols
import CommitScript.Proofs.Checked.Sums
import CommitScript.Proofs.ProverFaults

/-! # Checked proving

The prover with every partial operation checked, from the draws on the tape to whole scripts. Its
steps are those of the prover as long as every opening that is bound is reduced, and a prover
never comes to bind another one, whether its commands succeed or fail.
-/

namespace CommitScript

open Success

variable {Element : Type}

/-- Steps of a prover that may panic. -/
abbrev CheckedProving (Element : Type) := CheckedRun RunError (Prover Element)

namespace Prover

section Programs

variable (ops : CheckedOps Element) (task : ProverTask Element)

def drawChecked : CheckedProving Element Scalar := do
  let prover ← (get : Proving Element (Prover Element))
  let position := prover.drawn
  (modify fun prover => { prover with drawn := position + task.key.field.wideWidth } :
    Proving Element Unit)
  task.tape.scalarChecked position task.key.field

/-- Draws the scalars of a proof of a square. -/
def drawNoncesChecked : CheckedProving Element SquareNonces := do
  let blinding ← drawChecked task
  let secretNonce ← drawChecked task
  let sourceNonce ← drawChecked task
  let squareNonce ← drawChecked task
  return { blinding, secretNonce, sourceNonce, squareNonce }

/-- Makes something out of the history and keeps the history that results. -/
def converseChecked {α : Type} (f : ChallengeHistory → Checked (α × ChallengeHistory)) :
    CheckedProving Element α := do
  let prover ← (get : Proving Element (Prover Element))
  let made ← f prover.history
  (modify fun prover => { prover with history := made.2 } : Proving Element Unit)
  return made.1

/-- The commitment that an opening opens. -/
def commitmentChecked (opening : Opening) : Checked Element :=
  ops.commit task.key opening.secret opening.blinding

/-- Commits to a secret under a fresh blinding, publishes the commitment and binds the name. -/
def publishChecked (name : String) (secret : Scalar) : CheckedProving Element Unit := do
  let blinding ← drawChecked task
  let opening : Opening := { secret, blinding }
  let commitment ← commitmentChecked ops task opening
  converseChecked fun history =>
    pure ((), history.message "commitment" (task.key.group.encode commitment))
  (write [task.key.group.toHex commitment] : Proving Element Unit)
  (emit .debug "commit" [("name", name)] : Proving Element Unit)
  (define name opening : Proving Element Unit)

/-- Claims that a name hides a value. -/
def claimEqualChecked (name : String) (value : Int) : CheckedProving Element Unit := do
  let opening ← (opening name : Proving Element Opening)
  let claimed ← task.key.field.ofIntChecked value
  let shown := Text.signedDecimal value
  if opening.secret ≠ claimed then
    (emit .warn "claimed value does not match the committed secret"
      [("name", name), ("claimed", shown)] : Proving Element Unit)
  let commitment ← commitmentChecked ops task opening
  let nonce ← drawChecked task
  let proof ← converseChecked fun history =>
    ValueProof.proveChecked ops task.key history commitment claimed opening.blinding nonce
  (write (proof.toFields task.key) : Proving Element Unit)
  (emit .debug "equal" [("name", name), ("value", shown)] : Proving Element Unit)

/-- Binds a name to the square of another and proves the relation. -/
def claimSquareChecked (name source : String) : CheckedProving Element Unit := do
  let opening ← (opening source : Proving Element Opening)
  let commitment ← commitmentChecked ops task opening
  let nonces ← drawNoncesChecked task
  let squared ← converseChecked fun history =>
    SquareProof.proveChecked ops task.key history commitment opening.secret opening.blinding nonces
  (write [task.key.group.toHex squared.commitment] : Proving Element Unit)
  (write (squared.proof.toFields task.key) : Proving Element Unit)
  (emit .debug "square" [("name", name), ("source", source)] : Proving Element Unit)
  (define name { secret := squared.secret, blinding := squared.blinding } : Proving Element Unit)

/-- Claims that two names hide the same secret. -/
def claimSameChecked (left right : String) : CheckedProving Element Unit := do
  let first ← (opening left : Proving Element Opening)
  let second ← (opening right : Proving Element Opening)
  if first.secret ≠ second.secret then
    (emit .warn "commitments hide different secrets" [("left", left), ("right", right)] :
      Proving Element Unit)
  let firstCommitment ← commitmentChecked ops task first
  let secondCommitment ← commitmentChecked ops task second
  let proof ← converseChecked fun history =>
    SameProof.proveChecked task.key history firstCommitment secondCommitment first.blinding
      second.blinding
  (write (proof.toFields task.key) : Proving Element Unit)
  (emit .debug "same" [("left", left), ("right", right)] : Proving Element Unit)

def executeChecked (command : Command) : CheckedProving Element Unit := do
  (modify fun prover => { prover with executed := prover.executed + 1 } : Proving Element Unit)
  match command with
  | .input name =>
      match task.inputs.get? name with
      | some value =>
          let secret ← task.key.field.ofIntChecked value
          publishChecked ops task name secret
      | none => (throw (.missingInput name) : Proving Element Unit)
  | .commit name expression =>
      let prover ← (get : Proving Element (Prover Element))
      let secret ← evaluateChecked task.key.field prover.bindings expression
      publishChecked ops task name secret
  | .sum name terms =>
      let prover ← (get : Proving Element (Prover Element))
      let opening ← combineOpeningsChecked task.key.field prover.bindings terms
      (emit .debug "sum" [("name", name), ("terms", Text.decimal terms.length)] :
        Proving Element Unit)
      (define name opening : Proving Element Unit)
  | .equal name value => claimEqualChecked ops task name value
  | .square name source => claimSquareChecked ops task name source
  | .same left right => claimSameChecked ops task left right
  | .log => (showBindings : Proving Element Unit)

/-- Runs the commands of a script in order, up to the first fault. -/
def runChecked (script : Script) : CheckedProving Element Unit := do
  script.commands.forM (executeChecked ops task)
  let prover ← (get : Proving Element (Prover Element))
  (emit .info "proof transcript complete"
    [("statements", Text.decimal prover.executed),
     ("records", Text.decimal prover.records.length)] : Proving Element Unit)

end Programs

variable {ops : CheckedOps Element} {task : ProverTask Element}

theorem drawChecked_eq : drawChecked task = CheckedRun.ofState (draw task) := by
  simp only [drawChecked, Tape.scalarChecked_eq]
  rfl

theorem drawNoncesChecked_eq : drawNoncesChecked task = CheckedRun.ofState (drawNonces task) := by
  simp only [drawNoncesChecked, drawChecked_eq]
  rfl

variable (agrees : ops.Agrees task.key.group)
include agrees

theorem commitmentChecked_eq (opening : Opening) :
    commitmentChecked ops task opening = pure (opening.commitment task.key) :=
  agrees.commit _ _

theorem publishChecked_eq (name : String) (secret : Scalar) :
    publishChecked ops task name secret = CheckedRun.ofState (publish task name secret) := by
  rw [publishChecked, drawChecked_eq]
  refine CheckedRun.ofState_bind fun blinding => ?_
  simp only [commitmentChecked_eq agrees]
  rfl

theorem claimEqualChecked_eq (name : String) (value : Int) :
    claimEqualChecked ops task name value = CheckedRun.ofState (claimEqual task name value) := by
  rw [claimEqualChecked]
  refine CheckedRun.ofState_bind fun opening => ?_
  simp only [ScalarField.ofIntChecked_eq, commitmentChecked_eq agrees, drawChecked_eq,
    ValueProof.proveChecked_eq agrees, CheckedRun.lift_pure_bind]
  by_cases holds : opening.secret = task.key.field.ofInt value
  · simp only [holds, ne_eq, not_true_eq_false, if_false]
    rfl
  · simp only [holds, ne_eq, not_false_eq_true, if_true]
    rfl

theorem claimSquareChecked_eq (name source : String) :
    claimSquareChecked ops task name source =
      CheckedRun.ofState (claimSquare task name source) := by
  rw [claimSquareChecked]
  refine CheckedRun.ofState_bind fun opening => ?_
  simp only [commitmentChecked_eq agrees, drawNoncesChecked_eq, SquareProof.proveChecked_eq agrees]
  rfl

variable {p p' : Prover Element}

/-- The blinding of the right name is taken away, so it has to be reduced. -/
theorem claimSameChecked_eq (reduced : p.bindings.All (Opening.Reduced task.key.field))
    (left right : String) :
    claimSameChecked ops task left right p = pure (claimSame task left right p) := by
  refine CheckedRun.bind_eq rfl fun first p₁ looked => ?_
  obtain ⟨-, rfl⟩ := opening_eq_ok.mp looked
  refine CheckedRun.bind_eq rfl fun second p₁ looked => ?_
  obtain ⟨found, rfl⟩ := opening_eq_ok.mp looked
  have proves (history : ChallengeHistory) :=
    SameProof.proveChecked_eq task.key history (first.commitment task.key)
      (second.commitment task.key) first.blinding (reduced right second found).blinding
  simp only [commitmentChecked_eq agrees, proves, CheckedRun.lift_pure_bind]
  by_cases holds : first.secret = second.secret
  · simp only [holds, ne_eq, not_true_eq_false, if_false]
    rfl
  · simp only [holds, ne_eq, not_false_eq_true, if_true]
    rfl

/-- A prover whose openings are reduced runs a command without a panic. -/
theorem executeChecked_eq (reduced : p.bindings.All (Opening.Reduced task.key.field))
    (command : Command) :
    executeChecked ops task command p = pure (execute task command p) := by
  cases command with
  | input name =>
      rw [executeChecked, execute]
      cases task.inputs.get? name with
      | none => rfl
      | some value =>
          simp only [ScalarField.ofIntChecked_eq, CheckedRun.lift_pure_bind,
            publishChecked_eq agrees]
          rfl
  | commit name expression =>
      have evaluates : (evaluateChecked task.key.field p.bindings expression :
          CheckedProving Element Scalar) p.started = pure
            ((ofExcept (evaluate task.key.field p.bindings expression) :
              Proving Element Scalar) p.started) := by
        rw [evaluateChecked_eq reduced, CheckedRun.lift_ofExcept]
        rfl
      refine CheckedRun.bind_eq rfl fun _ _ started => ?_
      cases started
      refine CheckedRun.bind_eq rfl fun _ _ gotten => ?_
      cases gotten
      exact CheckedRun.bind_eq evaluates fun secret t _ =>
        congrFun (publishChecked_eq agrees name secret) t
  | sum name terms =>
      have combines : (combineOpeningsChecked task.key.field p.bindings terms :
          CheckedProving Element Opening) p.started = pure
            ((ofExcept (combineOpenings task.key.field p.bindings terms) :
              Proving Element Opening) p.started) := by
        rw [combineOpeningsChecked_eq, CheckedRun.lift_ofExcept]
        rfl
      refine CheckedRun.bind_eq rfl fun _ _ started => ?_
      cases started
      refine CheckedRun.bind_eq rfl fun _ _ gotten => ?_
      cases gotten
      exact CheckedRun.bind_eq combines fun _ _ _ => rfl
  | equal name value => exact congrFun (claimEqualChecked_eq agrees name value) p.started
  | square name source => exact congrFun (claimSquareChecked_eq agrees name source) p.started
  | same left right =>
      have reduced : p.started.bindings.All (Opening.Reduced task.key.field) := reduced
      exact claimSameChecked_eq agrees reduced left right
  | log => rfl

omit agrees in
/-- No command makes a prover bind an opening that is not reduced, whether it fails or not. -/
theorem reduced_of_execute (reduced : p.bindings.All (Opening.Reduced task.key.field))
    {command : Command}
    (h : execute task command p = .ok () p' ∨ ∃ fault, execute task command p = .error fault p') :
    p'.bindings.All (Opening.Reduced task.key.field) := by
  rcases h with succeeds | ⟨fault, fails⟩
  · exact (execute_eq_ok.mp succeeds).reduced reduced
  · obtain ⟨-, rfl⟩ := execute_eq_error.mp fails
    exact reduced

/-- A prover runs a script without a panic. -/
theorem runChecked_eq (script : Script) :
    runChecked ops task script (.start task.key) = pure (run task script (.start task.key)) :=
  CheckedRun.bind_eq
    (CheckedRun.forM_eq (fun command _ reduced => executeChecked_eq agrees reduced command)
      (fun _ _ _ reduced ran => reduced_of_execute reduced (.inl ran)) _ Table.all_empty)
    fun _ _ _ => rfl

omit agrees in
/-- After any commands, run past those that fail, every opening of a prover is reduced. -/
theorem reduced_of_runPast (commands : List Command)
    (reduced : p.bindings.All (Opening.Reduced task.key.field)) :
    (runPast task commands p).2.bindings.All (Opening.Reduced task.key.field) := by
  induction commands generalizing p with
  | nil => exact reduced
  | cons command commands ih =>
      rw [runPast]
      cases ran : execute task command p with
      | ok done after => exact ih (reduced_of_execute reduced (.inl ran))
      | error fault after => exact ih (reduced_of_execute reduced (.inr ⟨fault, ran⟩))

end Prover

/-- Runs a script from the start and gives the receipt. -/
def ProverTask.proveChecked (ops : CheckedOps Element) (task : ProverTask Element)
    (script : Script) : CheckedTry RunError Receipt := do
  match ← (Prover.runChecked ops task script (.start task.key) : Checked _) with
  | .ok _ prover => return { records := prover.records }
  | .error fault _ => throw fault

theorem ProverTask.proveChecked_eq {ops : CheckedOps Element} {task : ProverTask Element}
    (agrees : ops.Agrees task.key.group) (script : Script) :
    task.proveChecked ops script = CheckedTry.ofExcept (task.prove script) := by
  rw [proveChecked, Prover.runChecked_eq agrees, CheckedTry.lift_pure, pure_bind, prove]
  cases Prover.run task script (.start task.key) <;> rfl

end CommitScript

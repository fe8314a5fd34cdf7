import CommitScript.Proofs.Steps
import CommitScript.Proofs.TableLaws
import CommitScript.Run.Prover

/-! # Steps of a prover

What a prover does with one command, for each of the seven commands: what has to be found, and
the state it leaves. Once everything has been found a prover cannot fail, so running a command
succeeds exactly when such a step exists.
-/

namespace CommitScript

open Success

variable {Element : Type}

namespace Prover

/-- A prover that has started one more command. -/
def started (prover : Prover Element) : Prover Element :=
  { prover with executed := prover.executed + 1 }

def bound (prover : Prover Element) (name : String) (opening : Opening) : Prover Element :=
  { prover with bindings := prover.bindings.insert name opening }

def told (prover : Prover Element) (events : List Event) : Prover Element :=
  { prover with events := prover.events ++ events }

def drew (task : ProverTask Element) (prover : Prover Element) (count : Nat) : Prover Element :=
  { prover with drawn := prover.drawn + count * task.key.field.wideWidth }

/-- A prover that has come to another history and written some records. -/
def wrote (prover : Prover Element) (history : ChallengeHistory) (records : List (List String)) :
    Prover Element :=
  { prover with history, records := prover.records ++ records }

/-- The scalar at a place of the tape, counted in scalars from where the prover stands. -/
def scalarAt (task : ProverTask Element) (prover : Prover Element) (place : Nat) : Scalar :=
  task.tape.scalar (prover.drawn + place * task.key.field.wideWidth) task.key.field

/-- The scalars that a prover draws for a proof of a square. -/
def nextNonces (task : ProverTask Element) (prover : Prover Element) : SquareNonces where
  blinding := prover.scalarAt task 0
  secretNonce := prover.scalarAt task 1
  sourceNonce := prover.scalarAt task 2
  squareNonce := prover.scalarAt task 3

/-- What a prover tells of a fresh commitment. -/
def publishEvents (name : String) : List Event :=
  [{ level := .debug, message := "commit", fields := [("name", name)] }]

def sumEvents (name : String) (terms : List (Weight × String)) : List Event :=
  [{ level := .debug
     message := "sum"
     fields := [("name", name), ("terms", Text.decimal terms.length)] }]

/-- What a prover tells of a claimed value. -/
def equalEvents (name : String) (value : Int) (holds : Bool) : List Event :=
  let warning : Event :=
    { level := .warn
      message := "claimed value does not match the committed secret"
      fields := [("name", name), ("claimed", Text.signedDecimal value)] }
  (if holds then [] else [warning]) ++
    [{ level := .debug
       message := "equal"
       fields := [("name", name), ("value", Text.signedDecimal value)] }]

def squareEvents (name source : String) : List Event :=
  [{ level := .debug, message := "square", fields := [("name", name), ("source", source)] }]

/-- What a prover tells of a shared secret. -/
def sameEvents (left right : String) (holds : Bool) : List Event :=
  let warning : Event :=
    { level := .warn
      message := "commitments hide different secrets"
      fields := [("left", left), ("right", right)] }
  (if holds then [] else [warning]) ++
    [{ level := .debug, message := "same", fields := [("left", left), ("right", right)] }]

def bindingEvents (entries : List (String × Opening)) : List Event :=
  entries.map fun (name, opening) =>
    { level := .info
      message := "binding"
      fields := [("name", name), ("secret", Text.decimal opening.secret.value)] }

/-- The opening of a fresh commitment to a secret. -/
def fresh (task : ProverTask Element) (prover : Prover Element) (secret : Scalar) : Opening where
  secret := secret
  blinding := prover.scalarAt task 0

/-- A prover that has published a fresh commitment and bound a name to its opening. -/
def published (task : ProverTask Element) (prover : Prover Element) (name : String)
    (secret : Scalar) : Prover Element :=
  let opening := prover.fresh task secret
  let commitment := opening.commitment task.key
  (((prover.drew task 1).wrote
    (prover.history.message "commitment" (task.key.group.encode commitment))
    [[task.key.group.toHex commitment]]).told (publishEvents name)).bound name opening

/-- The proof that an opening hides a value, and the history after it. -/
def valueProof (task : ProverTask Element) (prover : Prover Element) (value : Int)
    (opening : Opening) : ValueProof Element × ChallengeHistory :=
  ValueProof.prove task.key prover.history (opening.commitment task.key)
    (task.key.field.ofInt value) opening.blinding (prover.scalarAt task 0)

/-- A prover that has claimed that a name hides a value. -/
def claimedEqual (task : ProverTask Element) (prover : Prover Element) (name : String)
    (value : Int) (opening : Opening) : Prover Element :=
  let proof := prover.valueProof task value opening
  ((prover.drew task 1).wrote proof.2 [proof.1.toFields task.key]).told
    (equalEvents name value (opening.secret = task.key.field.ofInt value))

/-- The square of an opening with its proof, and the history after it. -/
def squareProof (task : ProverTask Element) (prover : Prover Element) (opening : Opening) :
    Squared Element × ChallengeHistory :=
  SquareProof.prove task.key prover.history (opening.commitment task.key) opening.secret
    opening.blinding (prover.nextNonces task)

/-- A prover that has bound a name to the square of another. -/
def claimedSquare (task : ProverTask Element) (prover : Prover Element) (name source : String)
    (opening : Opening) : Prover Element :=
  let squared := prover.squareProof task opening
  (((prover.drew task 4).wrote squared.2
    [[task.key.group.toHex squared.1.commitment], squared.1.proof.toFields task.key]).told
      (squareEvents name source)).bound name
        { secret := squared.1.secret, blinding := squared.1.blinding }

/-- The proof that two openings share a secret, and the history after it. -/
def sameProof (task : ProverTask Element) (prover : Prover Element) (first second : Opening) :
    SameProof × ChallengeHistory :=
  SameProof.prove task.key prover.history (first.commitment task.key)
    (second.commitment task.key) first.blinding second.blinding

/-- A prover that has claimed that two names share a secret. -/
def claimedSame (task : ProverTask Element) (prover : Prover Element) (left right : String)
    (first second : Opening) : Prover Element :=
  let proof := prover.sameProof task first second
  (prover.wrote proof.2 [proof.1.toFields task.key]).told
    (sameEvents left right (first.secret = second.secret))

/-- What one command does to a prover that meets no fault. -/
inductive Step (task : ProverTask Element) : Command → Prover Element → Prover Element → Prop
  | input {prover : Prover Element} {name : String} {value : Int}
      (given : task.inputs.get? name = some value) :
      Step task (.input name) prover
        (prover.started.published task name (task.key.field.ofInt value))
  | commit {prover : Prover Element} {name expression : String} {secret : Scalar}
      (evaluates : evaluate task.key.field prover.bindings expression = .ok secret) :
      Step task (.commit name expression) prover (prover.started.published task name secret)
  | sum {prover : Prover Element} {name : String} {terms : List (Weight × String)}
      {opening : Opening}
      (combines : combineOpenings task.key.field prover.bindings terms = .ok opening) :
      Step task (.sum name terms) prover
        ((prover.started.told (sumEvents name terms)).bound name opening)
  | equal {prover : Prover Element} {name : String} {value : Int} {opening : Opening}
      (found : prover.bindings.get? name = some opening) :
      Step task (.equal name value) prover (prover.started.claimedEqual task name value opening)
  | square {prover : Prover Element} {name source : String} {opening : Opening}
      (found : prover.bindings.get? source = some opening) :
      Step task (.square name source) prover
        (prover.started.claimedSquare task name source opening)
  | same {prover : Prover Element} {left right : String} {first second : Opening}
      (foundLeft : prover.bindings.get? left = some first)
      (foundRight : prover.bindings.get? right = some second) :
      Step task (.same left right) prover
        (prover.started.claimedSame task left right first second)
  | log {prover : Prover Element} :
      Step task .log prover (prover.started.told (bindingEvents prover.bindings.entries))

variable {task : ProverTask Element} {p p' : Prover Element}

theorem opening_eq_ok {name : String} {opening : Opening} :
    Prover.opening name p = .ok opening p' ↔ p.bindings.get? name = some opening ∧ p' = p := by
  rw [← Table.find_eq_ok]
  exact ofExcept_eq_ok

/-- The first scalar drawn is the one where the prover stands. -/
@[simp]
theorem scalarAt_zero :
    p.scalarAt task 0 = task.tape.scalar p.drawn task.key.field := by
  rw [scalarAt, Nat.zero_mul, Nat.add_zero]

@[simp]
theorem drew_one : p.drew task 1 = { p with drawn := p.drawn + task.key.field.wideWidth } := by
  rw [drew, Nat.one_mul]

theorem publish_eq {name : String} {secret : Scalar} :
    publish task name secret p = .ok () (p.published task name secret) := by
  simp only [published, fresh, scalarAt_zero, drew_one]
  rfl

theorem drawNonces_eq : drawNonces task p = .ok (p.nextNonces task) (p.drew task 4) := by
  let width := task.key.field.wideWidth
  have two : p.drawn + 2 * width = p.drawn + width + width := by omega
  have three : p.drawn + 3 * width = p.drawn + width + width + width := by omega
  have four : p.drawn + 4 * width = p.drawn + width + width + width + width := by omega
  rw [nextNonces, scalarAt_zero, drew, four, scalarAt, scalarAt, scalarAt, two, three, Nat.one_mul]
  rfl

theorem claimEqual_of_found {name : String} {value : Int} {opening : Opening}
    (found : p.bindings.get? name = some opening) :
    claimEqual task name value p = .ok () (p.claimedEqual task name value opening) := by
  rw [claimEqual, bind_of_ok (opening_eq_ok.mpr ⟨found, rfl⟩), claimedEqual, valueProof,
    scalarAt_zero, drew_one, equalEvents]
  by_cases holds : opening.secret = task.key.field.ofInt value
  · simp only [holds, ne_eq, not_true_eq_false, if_false, decide_true, if_true]
    rfl
  · simp only [holds, ne_eq, not_false_eq_true, if_true, decide_false, Bool.false_eq_true,
      if_false]
    rw [told, ← List.append_assoc]
    rfl

theorem claimEqual_eq_ok {name : String} {value : Int} :
    claimEqual task name value p = .ok () p' ↔
      ∃ opening, p.bindings.get? name = some opening ∧
        p' = p.claimedEqual task name value opening := by
  constructor
  · intro h
    obtain ⟨opening, p₁, looked, -⟩ := bind_eq_ok.mp h
    obtain ⟨found, -⟩ := opening_eq_ok.mp looked
    rw [claimEqual_of_found found] at h
    cases h
    exact ⟨opening, found, rfl⟩
  · rintro ⟨opening, found, rfl⟩
    exact claimEqual_of_found found

theorem claimSquare_of_found {name source : String} {opening : Opening}
    (found : p.bindings.get? source = some opening) :
    claimSquare task name source p = .ok () (p.claimedSquare task name source opening) := by
  rw [claimSquare, bind_of_ok (opening_eq_ok.mpr ⟨found, rfl⟩), bind_of_ok drawNonces_eq,
    claimedSquare, wrote, List.append_cons]
  rfl

theorem claimSquare_eq_ok {name source : String} :
    claimSquare task name source p = .ok () p' ↔
      ∃ opening, p.bindings.get? source = some opening ∧
        p' = p.claimedSquare task name source opening := by
  constructor
  · intro h
    obtain ⟨opening, p₁, looked, -⟩ := bind_eq_ok.mp h
    obtain ⟨found, -⟩ := opening_eq_ok.mp looked
    rw [claimSquare_of_found found] at h
    cases h
    exact ⟨opening, found, rfl⟩
  · rintro ⟨opening, found, rfl⟩
    exact claimSquare_of_found found

theorem claimSame_of_found {left right : String} {first second : Opening}
    (foundLeft : p.bindings.get? left = some first)
    (foundRight : p.bindings.get? right = some second) :
    claimSame task left right p = .ok () (p.claimedSame task left right first second) := by
  rw [claimSame, bind_of_ok (opening_eq_ok.mpr ⟨foundLeft, rfl⟩),
    bind_of_ok (opening_eq_ok.mpr ⟨foundRight, rfl⟩), claimedSame, sameProof, sameEvents]
  by_cases holds : first.secret = second.secret
  · simp only [holds, ne_eq, not_true_eq_false, if_false, decide_true, if_true]
    rfl
  · simp only [holds, ne_eq, not_false_eq_true, if_true, decide_false, Bool.false_eq_true,
      if_false]
    rw [told, ← List.append_assoc]
    rfl

theorem claimSame_eq_ok {left right : String} :
    claimSame task left right p = .ok () p' ↔
      ∃ first second, p.bindings.get? left = some first ∧ p.bindings.get? right = some second ∧
        p' = p.claimedSame task left right first second := by
  constructor
  · intro h
    obtain ⟨first, p₁, looked, others⟩ := bind_eq_ok.mp h
    obtain ⟨foundLeft, rfl⟩ := opening_eq_ok.mp looked
    obtain ⟨second, p₂, looked, -⟩ := bind_eq_ok.mp others
    obtain ⟨foundRight, -⟩ := opening_eq_ok.mp looked
    rw [claimSame_of_found foundLeft foundRight] at h
    cases h
    exact ⟨first, second, foundLeft, foundRight, rfl⟩
  · rintro ⟨first, second, foundLeft, foundRight, rfl⟩
    exact claimSame_of_found foundLeft foundRight

theorem told_nil : p.told [] = p := by
  rw [told, List.append_nil]

theorem told_told (events events' : List Event) :
    (p.told events).told events' = p.told (events ++ events') := by
  rw [told, told, told, List.append_assoc]

theorem showEntries_eq (entries : List (String × Opening)) :
    (entries.forM fun (name, opening) => emit .info "binding"
      [("name", name), ("secret", Text.decimal opening.secret.value)] : Proving Element Unit) p =
      .ok () (p.told (bindingEvents entries)) := by
  induction entries generalizing p with
  | nil =>
      rw [bindingEvents, List.map_nil, told_nil]
      rfl
  | cons entry entries ih =>
      refine forM_cons_eq_ok.mpr ⟨_, rfl, ih.trans ?_⟩
      exact congrArg _ (told_told _ _)

theorem showBindings_eq : showBindings p = .ok () (p.told (bindingEvents p.bindings.entries)) :=
  showEntries_eq p.bindings.entries

theorem start_eq : (modify fun prover => { prover with executed := prover.executed + 1 } :
    Proving Element Unit) p = .ok () p.started :=
  rfl

theorem execute_input_of_given {name : String} {value : Int}
    (given : task.inputs.get? name = some value) :
    execute task (.input name) p =
      .ok () (p.started.published task name (task.key.field.ofInt value)) := by
  rw [execute, bind_of_ok start_eq]
  simp only [given]
  exact publish_eq

theorem execute_input_of_missing {name : String} (missing : task.inputs.get? name = none) :
    execute task (.input name) p = .error (.missingInput name) p.started := by
  rw [execute, bind_of_ok start_eq]
  simp only [missing]
  rfl

theorem execute_input_eq_ok {name : String} :
    execute task (.input name) p = .ok () p' ↔ Step task (.input name) p p' := by
  constructor
  · intro h
    cases given : task.inputs.get? name with
    | none =>
        rw [execute_input_of_missing given] at h
        cases h
    | some value =>
        rw [execute_input_of_given given] at h
        cases h
        exact .input given
  · intro step
    cases step with
    | input given => exact execute_input_of_given given

theorem execute_commit_eq_ok {name expression : String} :
    execute task (.commit name expression) p = .ok () p' ↔
      Step task (.commit name expression) p p' := by
  change (ofExcept (evaluate task.key.field p.bindings expression) >>= _ :
    Proving Element Unit) p.started = _ ↔ _
  rw [bind_eq_ok]
  constructor
  · rintro ⟨secret, p₁, valued, others⟩
    obtain ⟨evaluates, rfl⟩ := ofExcept_eq_ok.mp valued
    rw [publish_eq] at others
    cases others
    exact .commit evaluates
  · intro step
    cases step with
    | commit evaluates => exact ⟨_, _, ofExcept_eq_ok.mpr ⟨evaluates, rfl⟩, publish_eq⟩

theorem execute_sum_eq_ok {name : String} {terms : List (Weight × String)} :
    execute task (.sum name terms) p = .ok () p' ↔ Step task (.sum name terms) p p' := by
  change (ofExcept (combineOpenings task.key.field p.bindings terms) >>= _ :
    Proving Element Unit) p.started = _ ↔ _
  rw [bind_eq_ok]
  constructor
  · rintro ⟨opening, p₁, summed, others⟩
    obtain ⟨combines, rfl⟩ := ofExcept_eq_ok.mp summed
    cases others
    exact .sum combines
  · intro step
    cases step with
    | sum combines => exact ⟨_, _, ofExcept_eq_ok.mpr ⟨combines, rfl⟩, rfl⟩

/-- A prover runs a command exactly when the command has a step. -/
theorem execute_eq_ok {command : Command} :
    execute task command p = .ok () p' ↔ Step task command p p' := by
  cases command with
  | input name => exact execute_input_eq_ok
  | commit name expression => exact execute_commit_eq_ok
  | sum name terms => exact execute_sum_eq_ok
  | equal name value =>
      refine (claimEqual_eq_ok (p := p.started)).trans ⟨?_, ?_⟩
      · rintro ⟨opening, found, rfl⟩
        exact .equal found
      · intro step
        cases step with
        | equal found => exact ⟨_, found, rfl⟩
  | square name source =>
      refine (claimSquare_eq_ok (p := p.started)).trans ⟨?_, ?_⟩
      · rintro ⟨opening, found, rfl⟩
        exact .square found
      · intro step
        cases step with
        | square found => exact ⟨_, found, rfl⟩
  | same left right =>
      refine (claimSame_eq_ok (p := p.started)).trans ⟨?_, ?_⟩
      · rintro ⟨first, second, foundLeft, foundRight, rfl⟩
        exact .same foundLeft foundRight
      · intro step
        cases step with
        | same foundLeft foundRight => exact ⟨_, _, foundLeft, foundRight, rfl⟩
  | log =>
      change showBindings p.started = _ ↔ _
      rw [showBindings_eq]
      constructor
      · intro h
        cases h
        exact .log
      · intro step
        cases step
        rfl

/-- A command has one step at most. -/
theorem Step.unique {command : Command} {p'' : Prover Element} (step : Step task command p p')
    (step' : Step task command p p'') : p'' = p' := by
  rw [← execute_eq_ok] at step step'
  rw [step] at step'
  cases step'
  rfl

/-- A prover runs commands exactly along their steps. -/
theorem forM_eq_ok {commands : List Command} :
    commands.forM (execute task) p = .ok () p' ↔ Steps (Step task) commands p p' :=
  Steps.of_forM execute_eq_ok

end Prover

/-- Proving gives the records that the steps of the script have written. -/
theorem ProverTask.prove_eq_ok {task : ProverTask Element} {script : Script} {receipt : Receipt} :
    task.prove script = .ok receipt ↔
      ∃ p, Steps (Prover.Step task) script.commands (.start task.key) p ∧
        receipt = { records := p.records } := by
  unfold prove
  cases ran : script.commands.forM (Prover.execute task) (.start task.key) with
  | error fault p =>
      have fails : Prover.run task script (.start task.key) = .error fault p := bind_of_error ran
      rw [fails]
      constructor
      · intro h
        cases h
      · rintro ⟨p', steps, -⟩
        rw [Prover.forM_eq_ok.mpr steps] at ran
        cases ran
  | ok done p =>
      have steps := Prover.forM_eq_ok.mp ran
      have runs : ∃ p', Prover.run task script (.start task.key) = .ok () p' ∧
          p'.records = p.records :=
        ⟨_, bind_of_ok ran, rfl⟩
      obtain ⟨p', runs, records⟩ := runs
      rw [runs]
      constructor
      · intro h
        cases h
        exact ⟨p, steps, by rw [records]⟩
      · rintro ⟨p'', steps', rfl⟩
        have same : p'' = p := steps.unique (fun step step' => step.unique step') steps'
        rw [same, ← records]

end CommitScript

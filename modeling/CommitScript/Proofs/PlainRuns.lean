import CommitScript.Proofs.ProverFaults

/-! # Plain runs

What a script means among residues. Names stand for residues there, and there are no blindings
and no proofs. A prover's secrets are those of the plain run, and it stops where the plain run
stops, with the same fault. So neither depends on the tape, and no claim stops a prover for being
false.
-/

namespace CommitScript

open Success

variable {Element : Type}

/-- What names stand for in a plain run. -/
abbrev PlainNames (field : ScalarField) : Type :=
  String → Option (ZMod field.modulus)

namespace PlainNames

variable {field : ScalarField}

def empty (field : ScalarField) : PlainNames field :=
  fun _ => none

def find (names : PlainNames field) (name : String) : Except RunError (ZMod field.modulus) :=
  match names name with
  | some value => .ok value
  | none => .error (.undefined name)

/-- Binds a name, replacing any earlier meaning. -/
def bind (names : PlainNames field) (name : String) (value : ZMod field.modulus) :
    PlainNames field :=
  Function.update names name (some value)

/-- What the names of an expression stand for. -/
def scope (names : PlainNames field) : Scope where
  field := field
  lookup? name := (names name).map field.ofResidue

/-- Whether the names of a table stand for just these secrets. -/
def Describes (names : PlainNames field) (table : Table Opening) : Prop :=
  ∀ name, (table.get? name).map Opening.secret = (names name).map field.ofResidue

end PlainNames

/-- What a command makes of the names before it. -/
def Command.interpret (field : ScalarField) (inputs : Inputs) (names : PlainNames field) :
    Command → Except RunError (PlainNames field)
  | input name =>
      match inputs.get? name with
      | some value => .ok (names.bind name value)
      | none => .error (.missingInput name)
  | commit name expression => do
      let value ←
        (names.scope.value expression).mapError (EvaluationError.toRunError expression)
      return names.bind name (field.residue value)
  | sum name terms => do
      let factors ← terms.mapM fun term => (term.1.resolve field).mapError .algebra
      let values ← terms.mapM fun term => names.find term.2
      return names.bind name
        ((factors.zip values).map fun term => field.residue term.1 * term.2).sum
  | equal name _ => do
      let _ ← names.find name
      return names
  | square name source => do
      let value ← names.find source
      return names.bind name (value ^ 2)
  | same left right => do
      let _ ← names.find left
      let _ ← names.find right
      return names
  | log => .ok names

/-- The plain run of some commands, which begins without any names. -/
def plainRun (field : ScalarField) (inputs : Inputs) (commands : List Command) :
    Except RunError (PlainNames field) :=
  commands.foldlM (fun names command => command.interpret field inputs names) (.empty field)

namespace PlainNames

variable {field : ScalarField} {names : PlainNames field} {table : Table Opening}

theorem describes_empty : (empty field).Describes .empty :=
  fun _ => rfl

/-- Names are determined by the secrets that they describe. -/
theorem eq_of_describes (h : names.Describes table) :
    names = fun name => (table.get? name).map fun opening => field.residue opening.secret := by
  funext name
  have := congrArg (Option.map field.residue) (h name)
  rw [Option.map_map, Option.map_map] at this
  simpa [Function.comp_def] using this.symm

theorem Describes.insert (h : names.Describes table) (name : String) {opening : Opening}
    (reduced : field.Reduced opening.secret) :
    (names.bind name (field.residue opening.secret)).Describes (table.insert name opening) := by
  intro other
  rw [Table.get?_insert, bind, Function.update_apply]
  split
  · simp [ScalarField.ofResidue_residue reduced]
  · exact h other

theorem Describes.find (h : names.Describes table) (name : String) :
    names.find name = (table.find name).map fun opening => field.residue opening.secret := by
  rw [eq_of_describes h, PlainNames.find, Table.find]
  cases table.get? name <;> rfl

theorem Describes.evaluate (h : names.Describes table) (text : String) :
    evaluate field table text =
      (names.scope.value text).mapError (EvaluationError.toRunError text) := by
  have same : (fun name => (table.get? name).map Opening.secret) =
      fun name => (names name).map field.ofResidue :=
    funext h
  rw [CommitScript.evaluate, same]
  rfl

theorem scope_reduced (names : PlainNames field) : names.scope.Reduced := by
  intro name value lookup
  obtain ⟨a, -, rfl⟩ := Option.map_eq_some_iff.mp lookup
  exact ScalarField.reduced_ofResidue a

end PlainNames

theorem residue_sumOpenings (field : ScalarField) (pairs : List (Scalar × Opening)) :
    field.residue (sumOpenings field pairs).secret =
      (pairs.map fun pair => field.residue pair.1 * field.residue pair.2.secret).sum := by
  have step (total : Opening) :
      field.residue (pairs.foldl (fun total term =>
        { secret := field.add total.secret (field.mul term.1 term.2.secret)
          blinding := field.add total.blinding (field.mul term.1 term.2.blinding) })
        total : Opening).secret =
      field.residue total.secret +
        (pairs.map fun pair => field.residue pair.1 * field.residue pair.2.secret).sum := by
    induction pairs generalizing total with
    | nil => simp
    | cons pair pairs ih => simp [ih, add_assoc]
  rw [sumOpenings, step]
  simp

namespace PlainNames

variable {field : ScalarField} {names : PlainNames field} {table : Table Opening}

theorem Describes.find_eq_ok (h : names.Describes table) {name : String} {opening : Opening}
    (found : table.get? name = some opening) :
    names.find name = .ok (field.residue opening.secret) := by
  rw [h.find, Table.find_eq_ok.mpr found]
  rfl

theorem Describes.find_eq_error (h : names.Describes table) {name : String}
    (unbound : table.get? name = none) : names.find name = .error (.undefined name) := by
  rw [h.find, Table.find_eq_error.mpr ⟨unbound, rfl⟩]
  rfl

/-- A plain sum is the sum of the secrets, and fails as the sum of the openings does. -/
theorem Describes.interpret_sum (h : names.Describes table) (inputs : Inputs) (name : String)
    (terms : List (Weight × String)) :
    Command.interpret field inputs names (.sum name terms) =
      (combineOpenings field table terms).map fun opening =>
        names.bind name (field.residue opening.secret) := by
  simp only [Command.interpret, h.find, mapM_map, combineOpenings, resolveTerms]
  cases terms.mapM fun term => (term.1.resolve field).mapError RunError.algebra with
  | error fault => rfl
  | ok factors =>
      cases terms.mapM fun term => table.find term.2 with
      | error fault => rfl
      | ok values =>
          change Except.ok (names.bind name _) = Except.ok (names.bind name _)
          rw [residue_sumOpenings, List.zip_map_right, List.map_map]
          rfl

end PlainNames

namespace Prover

variable {task : ProverTask Element} {p p' : Prover Element} {command : Command}
  {commands : List Command} {names : PlainNames task.key.field}

/-- What a step of the prover binds is what the plain run binds. -/
theorem Step.interprets (describes : names.Describes p.bindings) (step : Step task command p p') :
    ∃ names', command.interpret task.key.field task.inputs names = .ok names' ∧
      names'.Describes p'.bindings := by
  cases step with
  | @input _ name value given =>
      have secret := describes.insert name
        (fresh_reduced (p := p.started) (task.key.field.reduced_ofInt value)).secret
      refine ⟨_, ?_, secret⟩
      simp [Command.interpret, given, fresh, ScalarField.residue_ofInt]
  | @commit _ name expression secret evaluates =>
      rw [describes.evaluate] at evaluates
      have reduced := Scope.reduced_value names.scope_reduced (mapError_eq_ok.mp evaluates)
      refine ⟨_, ?_, describes.insert name (fresh_reduced (p := p.started) reduced).secret⟩
      rw [Command.interpret, evaluates]
      rfl
  | @sum _ name terms opening combines =>
      refine ⟨_, ?_, describes.insert name (combineOpenings_reduced combines).secret⟩
      rw [describes.interpret_sum, combines]
      rfl
  | equal found =>
      refine ⟨names, ?_, describes⟩
      rw [Command.interpret, describes.find_eq_ok found]
      rfl
  | @square _ name source opening found =>
      have reduced := task.key.field.reduced_mul opening.secret opening.secret
      refine ⟨_, ?_, describes.insert name reduced⟩
      rw [Command.interpret, describes.find_eq_ok found]
      change Except.ok (names.bind name _) = Except.ok (names.bind name
        (task.key.field.residue (task.key.field.mul opening.secret opening.secret)))
      rw [ScalarField.residue_mul, pow_two]
  | same foundLeft foundRight =>
      refine ⟨names, ?_, describes⟩
      rw [Command.interpret, describes.find_eq_ok foundLeft, describes.find_eq_ok foundRight]
      rfl
  | log => exact ⟨names, rfl, describes⟩

theorem Fails.interprets {fault : RunError} (describes : names.Describes p.bindings)
    (fails : Fails task p command fault) :
    command.interpret task.key.field task.inputs names = .error fault := by
  cases fails with
  | input missing => simp [Command.interpret, missing]
  | commit valueless =>
      rw [describes.evaluate] at valueless
      rw [Command.interpret, valueless]
      rfl
  | sum sumless =>
      rw [describes.interpret_sum, sumless]
      rfl
  | equal unbound =>
      rw [Command.interpret, describes.find_eq_error unbound]
      rfl
  | square unbound =>
      rw [Command.interpret, describes.find_eq_error unbound]
      rfl
  | left unbound =>
      rw [Command.interpret, describes.find_eq_error unbound]
      rfl
  | right found unbound =>
      rw [Command.interpret, describes.find_eq_ok found, describes.find_eq_error unbound]
      rfl

/-- A prover and a plain run that begin with the same secrets go through commands alike. -/
theorem interprets_of_forM (describes : names.Describes p.bindings) :
    (∀ p', commands.forM (execute task) p = .ok () p' →
      ∃ names', commands.foldlM (fun names command =>
          command.interpret task.key.field task.inputs names) names = .ok names' ∧
        names'.Describes p'.bindings) ∧
    ∀ fault p', commands.forM (execute task) p = .error fault p' →
      commands.foldlM (fun names command =>
        command.interpret task.key.field task.inputs names) names = .error fault := by
  induction commands generalizing p names with
  | nil =>
      refine ⟨fun p' runs => ⟨names, rfl, ?_⟩, fun fault p' stops => by cases stops⟩
      obtain rfl := forM_nil_eq_ok.mp runs
      exact describes
  | cons command commands ih =>
      change (∀ p', (execute task command >>= fun _ => commands.forM (execute task)) p = _ → _) ∧
        ∀ fault p', (execute task command >>= fun _ => commands.forM (execute task)) p = _ → _
      rcases step_or_fails task p command with ⟨after, step⟩ | ⟨cause, fails⟩
      · obtain ⟨names', first, describes'⟩ := step.interprets describes
        rw [bind_of_ok (execute_eq_ok.mpr step), List.foldlM_cons, first]
        exact ih describes'
      · rw [bind_of_error (execute_of_fails fails), List.foldlM_cons, fails.interprets describes]
        constructor
        · intro p' runs
          cases runs
        · intro fault p' stops
          cases stops
          rfl

end Prover

namespace ProverTask

variable {task : ProverTask Element}

theorem plainRun_eq_error {commands : List Command} {fault : RunError} :
    plainRun task.key.field task.inputs commands = .error fault ↔
      ∃ p, commands.forM (Prover.execute task) (.start task.key) = .error fault p := by
  have nothing : (PlainNames.empty task.key.field).Describes (Prover.start task.key).bindings :=
    PlainNames.describes_empty
  obtain ⟨follows, stops⟩ := @Prover.interprets_of_forM _ _ _ commands _ nothing
  constructor
  · intro plain
    cases ran : commands.forM (Prover.execute task) (.start task.key) with
    | error cause p =>
        cases plain.symm.trans (stops cause p ran)
        exact ⟨p, rfl⟩
    | ok _ p =>
        obtain ⟨names, follows, -⟩ := follows p ran
        cases plain.symm.trans follows
  · rintro ⟨p, ran⟩
    exact stops fault p ran

theorem plainRun_eq_ok {commands : List Command} {names : PlainNames task.key.field} :
    plainRun task.key.field task.inputs commands = .ok names ↔
      ∃ p, commands.forM (Prover.execute task) (.start task.key) = .ok () p ∧
        names.Describes p.bindings := by
  have nothing : (PlainNames.empty task.key.field).Describes (Prover.start task.key).bindings :=
    PlainNames.describes_empty
  obtain ⟨follows, stops⟩ := @Prover.interprets_of_forM _ _ _ commands _ nothing
  constructor
  · intro plain
    cases ran : commands.forM (Prover.execute task) (.start task.key) with
    | error cause p => cases plain.symm.trans (stops cause p ran)
    | ok _ p =>
        obtain ⟨names', follows, describes⟩ := follows p ran
        cases plain.symm.trans follows
        exact ⟨p, rfl, describes⟩
  · rintro ⟨p, ran, describes⟩
    obtain ⟨names', follows, describes'⟩ := follows p ran
    have same : names' = names :=
      (PlainNames.eq_of_describes describes').trans (PlainNames.eq_of_describes describes).symm
    exact same ▸ follows

theorem stops_alike (task : ProverTask Element) (script : Script) (fault : RunError) :
    task.prove script = .error fault ↔
      plainRun task.key.field task.inputs script.commands = .error fault :=
  prove_eq_error.trans plainRun_eq_error.symm

end ProverTask

-- Over the residues of eleven the square of five is three; the name is then bound again, and the
-- false claim does no harm.
example : (plainRun ResidueGroup.smallTask.key.field ResidueGroup.smallTask.inputs
    [.input "a", .square "b" "a", .sum "a" [(.one, "b"), (.integer (-1), "a")],
      .equal "b" 7]).map (fun names => (names "a", names "b")) = .ok (some 9, some 3) :=
  rfl

end CommitScript

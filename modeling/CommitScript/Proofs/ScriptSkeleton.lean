import CommitScript.Proofs.CommandOutline
import CommitScript.Run.Opening

/-! # The skeleton of a script

What is left of a script when all is taken away that a verifier does not look at: names give way
to the places of the definitions that they refer to, inputs and expressions are both fresh
commitments, weights are the scalars that they stand for, and commands that only show something
are gone. The main statements say what can be done to a script without touching its skeleton:
logs may come and go, any expression may stand in a commitment, names may be exchanged for others,
and every definition may be given a name of its own.
-/

namespace CommitScript

/-- The place of the definition that a name refers to, counted from zero. The names that have been
    defined stand newest first, so a name refers to its latest definition. -/
def place? : List String → String → Option Nat
  | [], _ => none
  | bound :: earlier, name => if name = bound then some earlier.length else place? earlier name

/-- What a command asks of a verifier. -/
inductive Part where
  /-- A fresh commitment, whether of an input or of an expression. -/
  | fresh
  /-- A sum, with the scalar of each weight that has one. -/
  | sum (terms : List (Option Scalar × Option Nat))
  /-- A claim on a value, which is reduced. -/
  | equal (subject : Option Nat) (value : Int)
  | square (source : Option Nat)
  | same (left right : Option Nat)

namespace Command

/-- What a command asks of a verifier after some names have been defined; a log asks nothing. -/
def part? (field : ScalarField) (names : List String) : Command → Option Part
  | input _ => some .fresh
  | commit _ _ => some .fresh
  | sum _ terms =>
      some (.sum (terms.map fun term => ((term.1.resolve field).toOption, place? names term.2)))
  | equal name value => some (.equal (place? names name) (value % field.modulus))
  | square _ source => some (.square (place? names source))
  | same left right => some (.same (place? names left) (place? names right))
  | log => none

/-- The same command without its expression, if it has one. -/
def bare : Command → Command
  | commit name _ => input name
  | command => command

/-- The same command with another name for what it binds and other names for what it uses.
    Expressions stay as they are. -/
def rename (binder use : String → String) : Command → Command
  | input name => input (binder name)
  | commit name expression => commit (binder name) expression
  | sum name terms => sum (binder name) (terms.map fun term => (term.1, use term.2))
  | equal name value => equal (use name) value
  | square name source => square (binder name) (use source)
  | same left right => same (use left) (use right)
  | log => log

end Command

/-- What commands ask of a verifier, one after the other, after some names have been defined. -/
def skeletonFrom (field : ScalarField) (names : List String) : List Command → List Part
  | [] => []
  | command :: commands =>
      (command.part? field names).toList ++ skeletonFrom field (command.binds ++ names) commands

/-- The commands in which every definition has a fresh name of its own, after some names have been
    defined. Names that refer to nothing stay as they are. -/
def renamedApart (fresh : Nat → String) (names : List String) : List Command → List Command
  | [] => []
  | command :: commands =>
      command.rename (fun _ => fresh names.length)
          (fun name => (place? names name).elim name fresh) ::
        renamedApart fresh (command.binds ++ names) commands

namespace Script

/-- What is left of a script for a verifier. -/
def skeleton (field : ScalarField) (script : Script) : List Part :=
  skeletonFrom field [] script.commands

/-- The names that stand in a script, expressions apart. -/
def names (script : Script) : List String :=
  script.commands.flatMap fun command => command.uses ++ command.binds

/-- A script without its logs and expressions. -/
def bare (script : Script) : Script :=
  ⟨(script.commands.filter (· ≠ .log)).map Command.bare⟩

/-- A script in which every name has given way to another one. -/
def rename (f : String → String) (script : Script) : Script :=
  ⟨script.commands.map (Command.rename f f)⟩

/-- A script in which no name is defined twice. -/
def apart (fresh : Nat → String) (script : Script) : Script :=
  ⟨renamedApart fresh [] script.commands⟩

end Script

variable {field : ScalarField} {names : List String} {commands : List Command}

theorem place?_lt {name : String} {i : Nat} (h : place? names name = some i) :
    i < names.length := by
  induction names with
  | nil => cases h
  | cons bound earlier ih =>
      rw [place?] at h
      split at h
      · cases h
        exact Nat.lt_succ_self _
      · exact Nat.lt_succ_of_lt (ih h)

theorem Command.part?_eq_none {command : Command} :
    command.part? field names = none ↔ command = .log := by
  cases command <;> simp [part?]

section Shape

theorem skeletonFrom_log :
    skeletonFrom field names (.log :: commands) = skeletonFrom field names commands :=
  rfl

/-- Only logs ask for nothing at all. -/
theorem logs_of_skeletonFrom_eq_nil (h : skeletonFrom field names commands = []) :
    ∀ command ∈ commands, command = .log := by
  induction commands with
  | nil => exact fun _ member => absurd member List.not_mem_nil
  | cons command commands ih =>
      rw [skeletonFrom, List.append_eq_nil_iff, Option.toList_eq_nil_iff,
        Command.part?_eq_none] at h
      obtain ⟨rfl, others⟩ := h
      exact List.forall_mem_cons.mpr ⟨rfl, ih others⟩

/-- The first part of a skeleton belongs to the first command that is no log. -/
theorem skeletonFrom_eq_cons {part : Part} {parts : List Part}
    (h : skeletonFrom field names commands = part :: parts) :
    ∃ logs command others, commands = logs ++ command :: others ∧ (∀ silent ∈ logs, silent = .log) ∧
      command.part? field names = some part ∧
      skeletonFrom field (command.binds ++ names) others = parts := by
  induction commands with
  | nil => cases h
  | cons command commands ih =>
      cases shown : command.part? field names with
      | none =>
          obtain rfl := Command.part?_eq_none.mp shown
          obtain ⟨logs, next, others, rfl, silent, first, rest⟩ := ih h
          exact ⟨.log :: logs, next, others, rfl, List.forall_mem_cons.mpr ⟨rfl, silent⟩, first,
            rest⟩
      | some first =>
          rw [skeletonFrom, shown] at h
          obtain ⟨rfl, rest⟩ := List.cons.inj h
          exact ⟨[], command, commands, rfl, fun _ member => absurd member List.not_mem_nil, shown,
            rest⟩

end Shape

section Bare

theorem Command.part?_bare (command : Command) :
    command.bare.part? field names = command.part? field names := by
  cases command <;> rfl

theorem Command.binds_bare (command : Command) : command.bare.binds = command.binds := by
  cases command <;> rfl

theorem skeletonFrom_bare (commands : List Command) (names : List String) :
    skeletonFrom field names ((commands.filter (· ≠ .log)).map Command.bare) =
      skeletonFrom field names commands := by
  induction commands generalizing names with
  | nil => rfl
  | cons command commands ih =>
      by_cases silent : command = .log
      · rw [silent, List.filter_cons_of_neg (by simp), skeletonFrom_log]
        exact ih names
      · rw [List.filter_cons_of_pos (by simpa using silent), List.map_cons, skeletonFrom,
          skeletonFrom, Command.part?_bare, Command.binds_bare, ih]

theorem Script.skeleton_bare (script : Script) :
    script.bare.skeleton field = script.skeleton field :=
  skeletonFrom_bare script.commands []

end Bare

section Renaming

theorem Command.binds_rename (binder use : String → String) (command : Command) :
    (command.rename binder use).binds = command.binds.map binder := by
  cases command <;> rfl

/-- A command asks for the same when its names refer to the same definitions as before. -/
theorem Command.part?_rename {names' : List String} {binder use : String → String}
    {command : Command}
    (refers : ∀ name ∈ command.uses, place? names' (use name) = place? names name) :
    (command.rename binder use).part? field names' = command.part? field names := by
  cases command with
  | input name => rfl
  | commit name expression => rfl
  | sum name terms =>
      have each : ∀ term ∈ terms,
          ((term.1.resolve field).toOption, place? names' (use term.2)) =
            ((term.1.resolve field).toOption, place? names term.2) := fun term member => by
        rw [refers term.2 (List.mem_map_of_mem member)]
      rw [rename, part?, part?, List.map_map]
      exact congrArg (fun terms => some (Part.sum terms)) (List.map_congr_left each)
  | equal name value =>
      rw [rename, part?, part?, refers name (List.mem_singleton.mpr rfl)]
  | square name source =>
      rw [rename, part?, part?, refers source (List.mem_singleton.mpr rfl)]
  | same left right =>
      rw [rename, part?, part?, refers left List.mem_cons_self,
        refers right (List.mem_cons_of_mem _ List.mem_cons_self)]
  | log => rfl

theorem place?_map {f : String → String} {name : String}
    (apart : ∀ bound ∈ names, f name = f bound → name = bound) :
    place? (names.map f) (f name) = place? names name := by
  induction names with
  | nil => rfl
  | cons bound earlier ih =>
      obtain ⟨first, others⟩ := List.forall_mem_cons.mp apart
      rw [List.map_cons, place?, place?, ih others, List.length_map]
      by_cases same : name = bound
      · rw [if_pos same, if_pos (congrArg f same)]
      · rw [if_neg same, if_neg fun h => same (first h)]

theorem skeletonFrom_rename {f : String → String} {mentioned : Set String}
    (injective : mentioned.InjOn f) (commands : List Command) (names : List String)
    (inside : ∀ name ∈ names, name ∈ mentioned)
    (among : ∀ command ∈ commands, ∀ name ∈ command.uses ++ command.binds, name ∈ mentioned) :
    skeletonFrom field (names.map f) (commands.map (Command.rename f f)) =
      skeletonFrom field names commands := by
  induction commands generalizing names with
  | nil => rfl
  | cons command commands ih =>
      obtain ⟨here, later⟩ := List.forall_mem_cons.mp among
      have refers : ∀ name ∈ command.uses, place? (names.map f) (f name) = place? names name :=
        fun name used => place?_map fun bound member =>
          injective (here name (List.mem_append_left _ used)) (inside bound member)
      have inside' : ∀ name ∈ command.binds ++ names, name ∈ mentioned := fun name member =>
        (List.mem_append.mp member).elim (fun binds => here name (List.mem_append_right _ binds))
          (inside name)
      rw [List.map_cons, skeletonFrom, skeletonFrom, Command.part?_rename refers,
        Command.binds_rename, ← List.map_append, ih _ inside' later]

theorem Script.skeleton_rename {f : String → String} {script : Script}
    (injective : Set.InjOn f {name | name ∈ script.names}) :
    (script.rename f).skeleton field = script.skeleton field :=
  skeletonFrom_rename injective script.commands [] (fun _ member => absurd member List.not_mem_nil)
    fun command member _ mentioned => List.mem_flatMap.mpr ⟨command, member, mentioned⟩

end Renaming

section Apart

/-- The first so many fresh names, newest first. -/
def newest (fresh : Nat → String) : Nat → List String
  | 0 => []
  | count + 1 => fresh count :: newest fresh count

variable {fresh : Nat → String}

theorem length_newest (count : Nat) : (newest fresh count).length = count := by
  induction count with
  | zero => rfl
  | succ count ih => rw [newest, List.length_cons, ih]

theorem place?_newest (injective : fresh.Injective) {i count : Nat} (h : i < count) :
    place? (newest fresh count) (fresh i) = some i := by
  induction count with
  | zero => omega
  | succ count ih =>
      rw [newest, place?, length_newest]
      by_cases latest : i = count
      · rw [if_pos (congrArg fresh latest), latest]
      · rw [if_neg fun same => latest (injective same)]
        exact ih (by omega)

theorem place?_newest_of_foreign {name : String} (foreign : ∀ i, fresh i ≠ name) (count : Nat) :
    place? (newest fresh count) name = none := by
  induction count with
  | zero => rfl
  | succ count ih => rw [newest, place?, if_neg (foreign count).symm, ih]

/-- The fresh name of a definition refers to it. -/
theorem place?_newest_elim (injective : fresh.Injective) {name : String}
    (foreign : ∀ i, fresh i ≠ name) :
    place? (newest fresh names.length) ((place? names name).elim name fresh) =
      place? names name := by
  cases refers : place? names name with
  | none => exact place?_newest_of_foreign foreign _
  | some i => exact place?_newest injective (place?_lt refers)

/-- A command defines one name at most. -/
theorem Command.map_binds_append_newest (command : Command) (names : List String) :
    command.binds.map (fun _ => fresh names.length) ++ newest fresh names.length =
      newest fresh (command.binds ++ names).length := by
  cases command <;> rfl

theorem skeletonFrom_renamedApart (injective : fresh.Injective) (commands : List Command)
    (names : List String)
    (foreign : ∀ command ∈ commands, ∀ name ∈ command.uses, ∀ i, fresh i ≠ name) :
    skeletonFrom field (newest fresh names.length) (renamedApart fresh names commands) =
      skeletonFrom field names commands := by
  induction commands generalizing names with
  | nil => rfl
  | cons command commands ih =>
      obtain ⟨here, later⟩ := List.forall_mem_cons.mp foreign
      rw [renamedApart, skeletonFrom, skeletonFrom, Command.binds_rename,
        Command.map_binds_append_newest, ih _ later, Command.part?_rename]
      exact fun name used => place?_newest_elim injective (here name used)

theorem Script.skeleton_apart (injective : fresh.Injective) {script : Script}
    (foreign : ∀ i, fresh i ∉ script.names) :
    (script.apart fresh).skeleton field = script.skeleton field := by
  refine skeletonFrom_renamedApart injective script.commands [] ?_
  rintro command member name used i rfl
  exact foreign i (List.mem_flatMap.mpr ⟨command, member, List.mem_append_left _ used⟩)

/-- Every name that is bound is a fresh one, and none of them is bound twice. -/
theorem binds_renamedApart (injective : fresh.Injective) (commands : List Command)
    (names : List String) :
    (∀ name ∈ (renamedApart fresh names commands).flatMap Command.binds,
        ∃ i, names.length ≤ i ∧ fresh i = name) ∧
      ((renamedApart fresh names commands).flatMap Command.binds).Nodup := by
  induction commands generalizing names with
  | nil => exact ⟨fun _ member => absurd member List.not_mem_nil, List.nodup_nil⟩
  | cons command commands ih =>
      obtain ⟨later, distinct⟩ := ih (command.binds ++ names)
      rw [renamedApart, List.flatMap_cons, Command.binds_rename]
      have none : command.binds = [] ∨ ∃ name, command.binds = [name] := by
        cases command <;> simp [Command.binds]
      rcases none with nothing | ⟨_, one⟩
      · rw [nothing] at later distinct ⊢
        exact ⟨later, distinct⟩
      · rw [one, List.singleton_append, List.length_cons] at later
        rw [one, List.singleton_append] at distinct
        rw [one, List.map_singleton, List.singleton_append]
        refine ⟨List.forall_mem_cons.mpr ⟨⟨_, Nat.le_refl _, rfl⟩, fun other member => ?_⟩,
          List.nodup_cons.mpr ⟨fun again => ?_, distinct⟩⟩
        · obtain ⟨i, above, same⟩ := later other member
          exact ⟨i, by omega, same⟩
        · obtain ⟨i, above, same⟩ := later _ again
          have := injective same
          omega

/-- In single-assignment form no name is bound twice. -/
theorem Script.nodup_binds_apart (injective : fresh.Injective) (script : Script) :
    ((script.apart fresh).commands.flatMap Command.binds).Nodup :=
  (binds_renamedApart injective script.commands []).2

end Apart

end CommitScript

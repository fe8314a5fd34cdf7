import Mathlib
import CommitScript.Proofs.FieldLayout
import CommitScript.Run.Report
import CommitScript.Script.Basic

/-! # The outline of a script

What can be told of a script without any secret and without any record: the names that its
commands use and bind, the records that belong to them, and the claims on which a report has to
give a verdict.
-/

namespace CommitScript

namespace Command

/-- The names that a command's claim or sum is about. An expression is the prover's business
    alone, so its names are not among them. -/
def uses : Command → List String
  | input _ => []
  | commit _ _ => []
  | sum _ terms => terms.map Prod.snd
  | equal name _ => [name]
  | square _ source => [source]
  | same left right => [left, right]
  | log => []

/-- The name that a command binds, if it binds one. -/
def binds : Command → List String
  | input name => [name]
  | commit name _ => [name]
  | sum name _ => [name]
  | equal _ _ => []
  | square name _ => [name]
  | same _ _ => []
  | log => []

def weights : Command → List Weight
  | sum _ terms => terms.map Prod.fst
  | _ => []

/-- How many fields each of a command's records has. -/
def shape : Command → List Nat
  | input _ => [1]
  | commit _ _ => [1]
  | sum _ _ => []
  | equal _ _ => [3]
  | square _ _ => [1, 6]
  | same _ _ => [1]
  | log => []

/-- What the fields of a command's records hold. -/
def layout : Command → List (List Encoded)
  | input _ => [[.element]]
  | commit _ _ => [[.element]]
  | sum _ _ => []
  | equal _ _ => [ProofKind.value.layout]
  | square _ _ => [[.element], ProofKind.square.layout]
  | same _ _ => [ProofKind.same.layout]
  | log => []

theorem map_length_layout (command : Command) :
    command.layout.map List.length = command.shape := by
  cases command <;> rfl

theorem map_length_flatMap_layout (commands : List Command) :
    (commands.flatMap layout).map List.length = commands.flatMap shape := by
  rw [List.map_flatMap]
  exact List.flatMap_congr fun command _ => command.map_length_layout

/-- How many records belong to some commands. -/
def recordsOf (commands : List Command) : Nat :=
  (commands.flatMap shape).length

theorem recordsOf_append (before after : List Command) :
    recordsOf (before ++ after) = recordsOf before + recordsOf after := by
  rw [recordsOf, List.flatMap_append, List.length_append]
  rfl

/-- Where the proof of a claim stands after other commands: it is the last of the claim's
    records. -/
def proofRecord (before : List Command) (command : Command) : Nat :=
  recordsOf (before ++ [command]) - 1

/-- The name that a claim is about; commands that claim nothing have none. -/
def claimed? : Command → Option String
  | equal name _ => some name
  | square name _ => some name
  | same left _ => some left
  | _ => none

end Command

/-- What an outcome is about, whatever the verdict. -/
structure Subject where
  /-- Position of the command among all commands of the script, counted from one. -/
  index : Nat
  opcode : Opcode
  name : String
  statement : String
  deriving Repr, DecidableEq

/-- What an outcome is about. -/
def Outcome.subject (outcome : Outcome) : Subject where
  index := outcome.index
  opcode := outcome.opcode
  name := outcome.name
  statement := outcome.statement

/-- What the outcome of a command at a position is about, if the command claims anything. -/
def Command.subject? (index : Nat) (command : Command) : Option Subject :=
  command.claimed?.map fun name =>
    { index, opcode := command.opcode, name, statement := command.write }

/-- What the outcomes of commands are about, if the first of them is at a position. -/
def subjectsFrom (index : Nat) (commands : List Command) : List Subject :=
  (commands.zipIdx index).filterMap fun (command, position) => command.subject? position

/-- What the outcomes of a script are about. -/
def Script.subjects (script : Script) : List Subject :=
  subjectsFrom 1 script.commands

theorem subjectsFrom_cons (index : Nat) (command : Command) (commands : List Command) :
    subjectsFrom index (command :: commands) =
      (command.subject? index).toList ++ subjectsFrom (index + 1) commands := by
  rw [subjectsFrom, List.zipIdx_cons, List.filterMap_cons]
  simp only
  cases command.subject? index <;> rfl

theorem index_of_subject? {command : Command} {index : Nat} {subject : Subject}
    (h : command.subject? index = some subject) : subject.index = index := by
  obtain ⟨name, -, rfl⟩ := Option.map_eq_some_iff.mp h
  rfl

/-- The outcomes of commands lie between the position of the first command and that of the
    last. -/
theorem index_of_mem_subjectsFrom {index : Nat} {commands : List Command} {subject : Subject}
    (h : subject ∈ subjectsFrom index commands) :
    index ≤ subject.index ∧ subject.index < index + commands.length := by
  induction commands generalizing index with
  | nil => cases h
  | cons command commands ih =>
      rw [subjectsFrom_cons, List.mem_append, Option.mem_toList] at h
      rw [List.length_cons]
      cases h with
      | inl first =>
          have := index_of_subject? first
          omega
      | inr others =>
          have := ih others
          omega

/-- Every command comes after the ones that bind the names it uses, starting from some names
    that are bound already. -/
def Scoped (bound : List String) (commands : List Command) : Prop :=
  ∀ before command after, commands = before ++ command :: after →
    ∀ name ∈ command.uses, name ∈ bound ++ before.flatMap Command.binds

theorem scoped_nil (bound : List String) : Scoped bound [] := by
  intro before command after split
  simp at split

theorem scoped_cons {bound : List String} {command : Command} {commands : List Command} :
    Scoped bound (command :: commands) ↔
      (∀ name ∈ command.uses, name ∈ bound) ∧ Scoped (bound ++ command.binds) commands := by
  constructor
  · intro inScope
    constructor
    · intro name used
      have := inScope [] command commands rfl name used
      rwa [List.flatMap_nil, List.append_nil] at this
    · rintro before next after rfl name used
      have := inScope (command :: before) next after rfl name used
      rwa [List.flatMap_cons, ← List.append_assoc] at this
  · rintro ⟨first, others⟩ before next after split name used
    cases before with
    | nil =>
        obtain ⟨rfl, -⟩ := List.cons.inj split
        rw [List.flatMap_nil, List.append_nil]
        exact first name used
    | cons head before =>
        obtain ⟨rfl, rest⟩ := List.cons.inj split
        rw [List.flatMap_cons, ← List.append_assoc]
        exact others before next after rest name used

end CommitScript

import CommitScript.Proofs.CommandText
import CommitScript.Script.Basic

/-! # The text of a script

A script reads back from its text if its commands are sayable and nothing in them would be
trimmed away. Every script that is read is one of these, so writing and reading are inverse to
each other on the scripts that texts can hold. Marks, line breaks and characters of any script
may stand inside names and expressions.
-/

namespace CommitScript

open Success

namespace Command

/-- Whether a command reads back from a text: a record says it, and its names and its expression
    have no blank characters around them. -/
structure Writable (command : Command) : Prop extends Sayable command where
  trimmed : ∀ text ∈ command.texts, Text.trimField text = text

theorem trimField_termFields {terms : List (Weight × String)}
    (h : ∀ term ∈ terms, Text.trimField term.2 = term.2) :
    ∀ field ∈ termFields terms, Text.trimField field = field := by
  induction terms with
  | nil => exact List.forall_mem_nil _
  | cons term terms ih =>
      rw [List.forall_mem_cons] at h
      rw [termFields, List.forall_mem_cons, List.forall_mem_cons]
      exact ⟨(Weight.plainField_write term.1).2, h.1, ih h.2⟩

/-- The operands of a command have no blank characters around them if its texts have none:
    numbers never have. -/
theorem trimField_operands {command : Command}
    (h : ∀ text ∈ command.texts, Text.trimField text = text) :
    ∀ field ∈ command.operands, Text.trimField field = field := by
  cases command with
  | sum name terms =>
      rw [texts, List.forall_mem_cons, List.forall_mem_map] at h
      exact List.forall_mem_cons.mpr ⟨h.1, trimField_termFields h.2⟩
  | equal name value =>
      rw [texts, List.forall_mem_singleton] at h
      exact List.forall_mem_cons.mpr
        ⟨h, List.forall_mem_singleton.mpr (Text.plainField_signedDecimal value).2⟩
  | input name => exact h
  | commit name expression => exact h
  | square name source => exact h
  | same left right => exact h
  | log => exact h

theorem plainField_name (opcode : Opcode) : Receipt.PlainField opcode.name := by
  refine ⟨opcode.name_ne_empty, ?_⟩
  cases opcode <;> decide

theorem tidy_fields {command : Command}
    (h : ∀ text ∈ command.texts, Text.trimField text = text) : Receipt.Tidy command.fields := by
  obtain ⟨text, trimmed⟩ := plainField_name command.opcode
  exact ⟨List.forall_mem_cons.mpr ⟨trimmed, trimField_operands h⟩,
    command.opcode.name, List.mem_cons_self, text⟩

/-- A command that is decoded from a tidy record is writable. -/
theorem writable_of_ofRecord {record : Record} {command : Command}
    (tidy : Receipt.Tidy record.fields) (h : ofRecord record = .ok command) :
    command.Writable := by
  obtain ⟨sayable, among⟩ := sayable_of_ofRecord h
  exact ⟨sayable, fun text member => tidy.1 text (List.mem_of_mem_tail (among text member))⟩

end Command

namespace Script

theorem readCommands_eq (cursor : RecordCursor) :
    readCommands cursor =
      match cursor.next with
      | (none, _) => .ok []
      | (some (.error fault), _) => .error fault
      | (some (.ok record), after) => do
          let command ← Command.ofRecord record
          let commands ← readCommands after
          return command :: commands := by
  rw [readCommands]
  split <;> simp_all

/-- Reading commands succeeds when all records are read and each of them is decoded. -/
theorem readCommands_eq_ok {cursor : RecordCursor} {commands : List Command} :
    readCommands cursor = .ok commands ↔
      ∃ records, cursor.readAll = .ok records ∧ records.mapM Command.ofRecord = .ok commands := by
  fun_induction RecordCursor.readAll cursor generalizing commands with
  | case1 cursor after nothing =>
      rw [readCommands_eq, nothing]
      constructor
      · rintro ⟨⟩
        exact ⟨[], rfl, rfl⟩
      · rintro ⟨_, ⟨⟩, ⟨⟩⟩
        rfl
  | case2 cursor after fault refused =>
      rw [readCommands_eq, refused]
      constructor
      · rintro ⟨⟩
      · rintro ⟨_, ⟨⟩, _⟩
  | case3 cursor record after given ih =>
      rw [readCommands_eq, given]
      simp only [except_bind_eq_ok, except_pure_eq_ok, except_map_eq_ok, ih]
      constructor
      · rintro ⟨command, decoded, commands, ⟨records, all, others⟩, rfl⟩
        refine ⟨record :: records, ⟨records, all, rfl⟩, ?_⟩
        rw [List.mapM_cons, decoded, others]
        rfl
      · rintro ⟨_, ⟨records, all, rfl⟩, decoded⟩
        simp only [List.mapM_cons, except_bind_eq_ok, except_pure_eq_ok] at decoded
        obtain ⟨command, first, commands, others, rfl⟩ := decoded
        exact ⟨command, first, commands, ⟨records, all, others⟩, rfl⟩

theorem toList_write (script : Script) :
    script.write.toList = textChars (script.commands.map Command.fields) := by
  rw [write, String.toList_join, List.flatMap_map, textChars, List.flatMap_map]
  exact List.flatMap_congr fun command _ => String.toList_append

/-- A script of writable commands reads back from its text. -/
theorem read_write {script : Script} (h : ∀ command ∈ script.commands, command.Writable) :
    read script.write = .ok script := by
  have nothing : ∀ c ∈ ([] : List Char), Text.isBlank c :=
    fun _ member => absurd member List.not_mem_nil
  obtain ⟨records, all, fields⟩ :=
    readAll_textChars (script.commands.map Command.fields) 0 nothing
  have tidy : ∀ fields ∈ script.commands.map Command.fields, Receipt.Tidy fields :=
    List.forall_mem_map.mpr fun command member => Command.tidy_fields (h command member).trimmed
  rw [Receipt.normal_of_tidy tidy, ← List.forall₂_eq_eq_eq, List.forall₂_map_left_iff,
    List.forall₂_map_right_iff] at fields
  have decoded : List.Forall₂ (fun record command => Command.ofRecord record = .ok command)
      records script.commands := by
    refine ((List.forall₂_and_left _ _).mpr ⟨h, fields.flip⟩).flip.imp ?_
    rintro ⟨number, _⟩ command ⟨writable, rfl⟩
    exact Command.ofRecord_fields writable.toSayable number
  have commands : readCommands (.ofString script.write) = .ok script.commands := by
    rw [RecordCursor.ofString, toList_write]
    exact readCommands_eq_ok.mpr ⟨records, all, mapM_eq_ok.mpr decoded⟩
  rw [read, commands]
  rfl

/-- Every command of a script that is read is writable. -/
theorem writable_of_read {text : String} {script : Script} (h : read text = .ok script) :
    ∀ command ∈ script.commands, command.Writable := by
  obtain ⟨commands, read, rfl⟩ := except_map_eq_ok.mp h
  obtain ⟨records, all, decoded⟩ := readCommands_eq_ok.mp read
  intro command member
  obtain ⟨record, among, gives⟩ := exists_of_mem_mapM decoded member
  exact Command.writable_of_ofRecord (RecordCursor.tidy_of_readAll all record among) gives

/-- A script reads back from its text exactly when all its commands are writable. Every script
    that is read from some text is such a script, so it reads back from the text that it is
    written as. -/
theorem reads_back :
    (∀ script : Script,
      read script.write = .ok script ↔ ∀ command ∈ script.commands, command.Writable) ∧
    ∀ text script, read text = .ok script →
      (∀ command ∈ script.commands, command.Writable) ∧ read script.write = .ok script := by
  refine ⟨fun script => ⟨writable_of_read, read_write⟩, ?_⟩
  intro text script reads
  have writable := writable_of_read reads
  exact ⟨writable, read_write writable⟩

theorem reads_back_small :
    let script : Script :=
      ⟨[.input "a,b", .sum "é\n;" [(.fraction 5 3, "a,b"), (.inverse 7, "a,b")],
        .equal "é\n;" (-4), .log]⟩
    script.write =
        "input,a@,b;\nsum,é\n@;,.005,a@,b,/7,a@,b;\nequal,é\n@;,-4;\nlog;\n" ∧
      read script.write = .ok script ∧ ∀ command ∈ script.commands, command.Writable := by
  intro script
  have input : (Command.input "a,b").Writable :=
    ⟨⟨by decide, by simp [Command.weights], by simp⟩, by decide⟩
  have sum : (Command.sum "é\n;" [(.fraction 5 3, "a,b"), (.inverse 7, "a,b")]).Writable := by
    refine ⟨⟨by decide, ?_, by simp⟩, by decide⟩
    simp [Command.weights, Weight.Literal, UInt32.size]
  have equal : (Command.equal "é\n;" (-4)).Writable :=
    ⟨⟨by decide, by simp [Command.weights], by simp⟩, by decide⟩
  have log : Command.log.Writable :=
    ⟨⟨by decide, by simp [Command.weights], by simp⟩, by decide⟩
  have writable : ∀ command ∈ script.commands, command.Writable := by
    simp only [script, List.forall_mem_cons]
    exact ⟨input, sum, equal, log, List.forall_mem_nil _⟩
  have reads := (reads_back.1 script).mpr writable
  exact ⟨by decide, reads, (reads_back.2 _ _ reads).1⟩

end Script

end CommitScript

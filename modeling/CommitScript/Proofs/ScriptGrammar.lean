import CommitScript.Proofs.RecordStreams
import CommitScript.Proofs.ScriptText

/-! # What scripts say

A script is read from all that a cursor gives for its text: each record has to say a command, and
the first fault in the text is the one that is reported, be it one of the text or of a record.
-/

namespace CommitScript

open Success

namespace Script

/-- The commands of a script are read from all that a cursor gives. -/
theorem readCommands_eq_mapM (cursor : RecordCursor) :
    readCommands cursor = cursor.results.mapM fun result => result >>= Command.ofRecord := by
  fun_induction RecordCursor.results cursor with
  | case1 cursor after nothing =>
      rw [readCommands_eq, nothing]
      rfl
  | case2 cursor result after given ih =>
      rw [readCommands_eq, given, List.mapM_cons, ← ih]
      cases result with
      | error fault => rfl
      | ok record => rfl

/-- What is given and decoded says a command. -/
theorem bind_ofRecord_eq_ok {result : Except ScriptError Record} {command : Command} :
    result >>= Command.ofRecord = .ok command ↔
      ∃ record, result = .ok record ∧ Command.SaidBy record.fields command := by
  rw [except_bind_eq_ok]
  simp only [Command.ofRecord_eq_ok]

theorem bind_ofRecord_eq_error {result : Except ScriptError Record} {fault : ScriptError} :
    result >>= Command.ofRecord = .error fault ↔
      result = .error fault ∨ ∃ record, result = .ok record ∧ Command.Refused record fault := by
  rw [except_bind_eq_error]
  simp only [Command.ofRecord_eq_error]

/-- A record is decoded just if its fields say a command, and then as that command; the command
    is decoded from the fields that it is written with. Any other record is refused for the first
    reason that holds, with its own number. A script is read just if every record of its text says
    a command, and is refused for the first fault in the text. -/
theorem decoding_is_the_grammar :
    (∀ record command,
      Command.ofRecord record = .ok command ↔ Command.SaidBy record.fields command) ∧
    (∀ fields command number, Command.SaidBy fields command →
      Command.ofRecord { number, fields := command.fields } = .ok command) ∧
    (∀ record fault, Command.ofRecord record = .error fault ↔ Command.Refused record fault) ∧
    (∀ record, (∀ command, ¬Command.SaidBy record.fields command) →
      ∃ fault, Command.ofRecord record = .error fault ∧
        ((∃ name, fault = .unknownOpcode record.number name) ∨
          (∃ opcode reason, fault = .invalidOperands record.number opcode reason) ∨
          ∃ literal, fault = .invalidLiteral record.number literal)) ∧
    (∀ text script, read text = .ok script ↔
      List.Forall₂
        (fun result command => ∃ record, result = .ok record ∧ Command.SaidBy record.fields command)
        (RecordCursor.ofString text).results script.commands) ∧
    ∀ text fault, read text = .error fault ↔
      ∃ before result after, (RecordCursor.ofString text).results = before ++ result :: after ∧
        (∀ good ∈ before,
          ∃ command record, good = .ok record ∧ Command.SaidBy record.fields command) ∧
        (result = .error fault ∨ ∃ record, result = .ok record ∧ Command.Refused record fault) := by
  refine ⟨fun _ _ => Command.ofRecord_eq_ok, ?_, fun _ _ => Command.ofRecord_eq_error, ?_, ?_, ?_⟩
  · intro fields command number said
    have decoded := Command.ofRecord_of_said number said
    exact Command.ofRecord_fields (Command.sayable_of_ofRecord decoded).1 number
  · intro record none
    obtain ⟨command, said⟩ | ⟨fault, refused⟩ := Command.says_or_refused record
    · exact absurd said (none command)
    · refine ⟨fault, Command.ofRecord_of_refused refused, ?_⟩
      cases refused with
      | opcode => exact .inl ⟨_, rfl⟩
      | operands => exact .inr (.inl ⟨_, _, rfl⟩)
      | literal => exact .inr (.inr ⟨_, rfl⟩)
  · intro text script
    rw [read, except_map_eq_ok, readCommands_eq_mapM]
    simp only [mapM_eq_ok, bind_ofRecord_eq_ok]
    constructor
    · rintro ⟨commands, said, rfl⟩
      exact said
    · exact fun said => ⟨_, said, rfl⟩
  · intro text fault
    rw [read, except_map_eq_error, readCommands_eq_mapM, mapM_eq_error_iff]
    simp only [bind_ofRecord_eq_ok, bind_ofRecord_eq_error]

theorem decoding_is_the_grammar_sum :
    let sum : Command := .sum "s" [(.fraction 50 2, "a"), (.integer (-2), "b")]
    Command.SaidBy ["sum", "s", ".50", "a", "-2", "b"] sum ∧
      Command.ofRecord { number := 3, fields := sum.fields } = .ok sum ∧
      ∃ fault, Command.ofRecord { number := 4, fields := ["sum", "s", "5"] } = .error fault := by
  intro sum
  have half : Weight.Spelled ".50".toList (.fraction 50 2) := Weight.ofChars?_iff.mp (by decide)
  have minus : Weight.Spelled "-2".toList (.integer (-2)) := Weight.ofChars?_iff.mp (by decide)
  have said : Command.SaidBy ["sum", "s", ".50", "a", "-2", "b"] sum :=
    .sum (by decide) (.cons half (by decide) (.cons minus (by decide) .nil)) (List.cons_ne_nil _ _)
  have odd : ∀ command, ¬Command.SaidBy ["sum", "s", "5"] command := by
    intro command said
    generalize given : ["sum", "s", "5"] = fields at said
    cases said with
    | sum _ terms =>
        cases given
        cases terms
    | _ => simp at given
  obtain ⟨-, back, -, other, -⟩ := decoding_is_the_grammar
  obtain ⟨fault, refused, -⟩ := other { number := 4, fields := ["sum", "s", "5"] } odd
  exact ⟨said, back _ sum 3 said, fault, refused⟩

/-- A sum of one term is refused for its weight if no weight is written so. -/
theorem refused_weight {literal : String} (unread : Weight.ofChars? literal.toList = none)
    (number : Nat) (name source : String) :
    Command.ofRecord { number, fields := ["sum", name, literal, source] } =
      .error (.invalidOperands number .sum (.weight literal)) := by
  have none : Command.NoTerms 2 [literal, source] (.weight literal) :=
    .weight (Weight.ofChars?_eq_none.mp unread)
  have unfit : Command.Unfit .sum [name, literal, source] (.weight literal) :=
    .terms (List.cons_ne_nil _ _) (Nat.mod_self 2) none
  exact Command.ofRecord_of_refused (.operands rfl unfit)

/-- A point and some digits are not a weight if 32 bits do not count the digits; and the digits of
    a weight are those from `0` to `9`, not those of other scripts. -/
theorem decoding_is_the_grammar_long :
    let digits := List.replicate (2 ^ 32) '0'
    let long := String.ofList ('.' :: digits)
    (digits ≠ [] ∧ ∀ c ∈ digits, c.isDigit) ∧
      Command.ofRecord { number := 1, fields := ["sum", "s", long, "a"] } =
        .error (.invalidOperands 1 .sum (.weight long)) ∧
      Command.ofRecord { number := 1, fields := ["sum", "s", "٣", "a"] } =
        .error (.invalidOperands 1 .sum (.weight "٣")) := by
  intro digits long
  have length : digits.length = 2 ^ 32 := List.length_replicate
  have nonempty : digits ≠ [] := List.ne_nil_of_length_pos (length ▸ Nat.two_pow_pos 32)
  have zeros : ∀ c ∈ digits, c.isDigit := by
    intro c member
    rw [List.eq_of_mem_replicate member]
    rfl
  have unread : Weight.ofChars? long.toList = none := by
    rw [String.toList_ofList]
    exact Weight.ofChars?_long length.ge
  exact ⟨⟨nonempty, zeros⟩, refused_weight unread 1 "s" "a", refused_weight (by decide) 1 "s" "a"⟩

end Script

end CommitScript

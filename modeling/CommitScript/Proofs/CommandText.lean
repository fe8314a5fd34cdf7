import CommitScript.Proofs.CommandGrammar
import CommitScript.Proofs.CommandOutline
import CommitScript.Proofs.RecordText

/-! # Commands as records

A command is decoded from the fields of one record, and its own fields decode as that command.
For this its names and its expression need some text and its weights have to be ones that a
literal stands for; every command that is decoded is of that sort.
-/

namespace CommitScript

open Success

namespace Text

theorem not_isBlank_of_isDigit {c : Char} (h : c.isDigit) : ¬isBlank c := by
  have := toNat_of_isDigit h
  intro blank
  simp only [isBlank, Bool.or_eq_true, Bool.and_eq_true, decide_eq_true_eq, beq_iff_eq] at blank
  omega

theorem not_isBlank_of_mem_decimal {n : Nat} : ∀ c ∈ (decimal n).toList, ¬isBlank c :=
  fun c member => not_isBlank_of_isDigit ((decimal_digits n).2 c member)

/-- A field that has characters, none of them blank, is plain. -/
theorem plainField {field : String} (nonempty : field.toList ≠ [])
    (h : ∀ c ∈ field.toList, ¬isBlank c) : Receipt.PlainField field := by
  refine ⟨fun empty => nonempty (by rw [empty]; rfl), ?_⟩
  rw [trimField, trim_eq_self h, String.ofList_toList]

theorem plainField_signedDecimal (value : Int) : Receipt.PlainField (signedDecimal value) := by
  cases value with
  | ofNat n => exact plainField (decimal_digits n).1 not_isBlank_of_mem_decimal
  | negSucc n =>
      apply plainField
      all_goals simp only [signedDecimal, String.toList_append]
      · exact List.cons_ne_nil _ _
      · exact List.forall_mem_cons.mpr ⟨by decide, not_isBlank_of_mem_decimal⟩

end Text

namespace Weight

theorem plainField_write (weight : Weight) : Receipt.PlainField weight.write := by
  cases weight with
  | integer value => exact Text.plainField_signedDecimal value
  | fraction numerator places =>
      have digits := (Text.digits?_eq_some.mp (Text.digits?_leftpad numerator places)).1.2
      apply Text.plainField
      all_goals rw [toList_write_fraction]
      · exact List.cons_ne_nil _ _
      · exact List.forall_mem_cons.mpr
          ⟨by decide, fun c member => Text.not_isBlank_of_isDigit (digits c member)⟩
  | inverse divisor =>
      apply Text.plainField
      all_goals rw [toList_write_inverse]
      · exact List.cons_ne_nil _ _
      · exact List.forall_mem_cons.mpr ⟨by decide, Text.not_isBlank_of_mem_decimal⟩

end Weight

namespace Command

/-- The names of a command and its expression, which stand in its record as they are. -/
def texts : Command → List String
  | input name => [name]
  | commit name expression => [name, expression]
  | sum name terms => name :: terms.map Prod.snd
  | equal name _ => [name]
  | square name source => [name, source]
  | same left right => [left, right]
  | log => []

/-- Whether a command is what some record says: it leaves no name and no expression empty, each
    of its weights is one that a literal stands for, and if it is a sum, it has terms. -/
structure Sayable (command : Command) : Prop where
  texts : ∀ text ∈ command.texts, text ≠ ""
  weights : ∀ weight ∈ command.weights, weight.Literal
  terms : ∀ name, command ≠ sum name []

theorem termsSaid_termFields {terms : List (Weight × String)}
    (h : ∀ term ∈ terms, term.1.Literal ∧ term.2 ≠ "") : TermsSaid (termFields terms) terms := by
  induction terms with
  | nil => exact .nil
  | cons term terms ih =>
      rw [List.forall_mem_cons] at h
      obtain ⟨⟨literal, named⟩, others⟩ := h
      exact .cons (Weight.spelled_write literal) named (ih others)

/-- The fields of a sayable command say it. -/
theorem saidBy_fields {command : Command} (sayable : command.Sayable) :
    SaidBy command.fields command := by
  obtain ⟨texts, weights, terms⟩ := sayable
  cases command with
  | input name => exact .input (texts name (by simp [Command.texts]))
  | commit name expression =>
      exact .commit (texts name (by simp [Command.texts]))
        (texts expression (by simp [Command.texts]))
  | sum name pairs =>
      have said : TermsSaid (termFields pairs) pairs :=
        termsSaid_termFields fun term member =>
          ⟨weights term.1 (List.mem_map_of_mem member),
            texts term.2 (List.mem_cons_of_mem _ (List.mem_map_of_mem member))⟩
      have some : pairs ≠ [] := by
        rintro rfl
        exact terms name rfl
      exact .sum (texts name List.mem_cons_self) said some
  | equal name value =>
      exact .equal (texts name (by simp [Command.texts]))
        (Text.integer?_iff.mp (Text.integer?_signedDecimal value))
  | square name source =>
      exact .square (texts name (by simp [Command.texts])) (texts source (by simp [Command.texts]))
  | same left right =>
      exact .same (texts left (by simp [Command.texts])) (texts right (by simp [Command.texts]))
  | log => exact .log

/-- Terms have weights that literals stand for and names that stand among the operands. -/
theorem TermsSaid.literal {operands : List String} {terms : List (Weight × String)}
    (h : TermsSaid operands terms) :
    ∀ term ∈ terms, term.1.Literal ∧ term.2 ≠ "" ∧ term.2 ∈ operands := by
  induction h with
  | nil => exact List.forall_mem_nil _
  | cons spelled named _ ih =>
      rw [List.forall_mem_cons]
      refine ⟨⟨Weight.literal_of_spelled spelled, named, by simp⟩, fun term member => ?_⟩
      obtain ⟨proper, named, among⟩ := ih term member
      exact ⟨proper, named, List.mem_cons_of_mem _ (List.mem_cons_of_mem _ among)⟩

/-- What fields say is sayable, and its texts are among the operands. -/
theorem SaidBy.sayable {fields : List String} {command : Command} (h : SaidBy fields command) :
    command.Sayable ∧ ∀ text ∈ command.texts, text ∈ fields.tail := by
  cases h with
  | @sum name operands terms named said some =>
      have proper := said.literal
      refine ⟨⟨?_, ?_, ?_⟩, ?_⟩
      · exact List.forall_mem_cons.mpr
          ⟨named, List.forall_mem_map.mpr fun term member => (proper term member).2.1⟩
      · exact List.forall_mem_map.mpr fun term member => (proper term member).1
      · rintro name' same
        exact some (Command.sum.inj same).2
      · refine List.forall_mem_cons.mpr
          ⟨List.mem_cons_self, List.forall_mem_map.mpr fun term member => ?_⟩
        exact List.mem_cons_of_mem _ (proper term member).2.2
  | _ =>
      refine ⟨⟨?_, List.forall_mem_nil _, by simp⟩, ?_⟩
      all_goals simp_all [texts]

/-- The fields of a command are decoded as that command. -/
theorem ofRecord_fields {command : Command} (sayable : command.Sayable) (number : Nat) :
    ofRecord { number, fields := command.fields } = .ok command :=
  ofRecord_of_said number (saidBy_fields sayable)

/-- A command that is decoded from a record is sayable, and its texts are operands of the
    record. -/
theorem sayable_of_ofRecord {record : Record} {command : Command}
    (h : ofRecord record = .ok command) :
    command.Sayable ∧ ∀ text ∈ command.texts, text ∈ record.operands :=
  (ofRecord_eq_ok.mp h).sayable

end Command

end CommitScript

import CommitScript.Proofs.LiteralText
import CommitScript.Proofs.Success
import CommitScript.Script.Command

/-! # What records say

Which fields say which command, and why other fields say none: the opcode comes first, then the
number of operands, then an expression or the literals, then the names. A record is decoded as the
command that it says or is refused for the first reason that holds.
-/

namespace CommitScript

open Success

namespace Opcode

/-- The number of operands, for the opcodes that fix it. -/
def operandCount : Opcode → Option Nat
  | input => some 1
  | commit | equal | square | same => some 2
  | log => some 0
  | sum => none

theorem name_ne_empty (opcode : Opcode) : opcode.name ≠ "" := by
  cases opcode <;> decide

theorem ofName?_eq_some {name : String} {opcode : Opcode} :
    ofName? name = some opcode ↔ name = opcode.name := by
  constructor
  · intro found
    have same := List.find?_some found
    exact (beq_iff_eq.mp same).symm
  · rintro rfl
    exact ofName?_name opcode

theorem ofName?_eq_none {name : String} :
    ofName? name = none ↔ ∀ opcode : Opcode, name ≠ opcode.name := by
  rw [Option.eq_none_iff_forall_ne_some]
  exact forall_congr' fun opcode => ofName?_eq_some.not

end Opcode

namespace Command

/-- The terms that operands after the name of a sum stand for. -/
inductive TermsSaid : List String → List (Weight × String) → Prop
  | nil : TermsSaid [] []
  | cons {literal weight name operands terms} : Weight.Spelled literal.toList weight → name ≠ "" →
      TermsSaid operands terms → TermsSaid (literal :: name :: operands) ((weight, name) :: terms)

/-- The command that the fields of a record say. -/
inductive SaidBy : List String → Command → Prop
  | input {name} : name ≠ "" → SaidBy ["input", name] (input name)
  | commit {name expression} : name ≠ "" → expression ≠ "" →
      SaidBy ["commit", name, expression] (commit name expression)
  | sum {name operands terms} : name ≠ "" → TermsSaid operands terms → terms ≠ [] →
      SaidBy ("sum" :: name :: operands) (sum name terms)
  | equal {name literal value} : name ≠ "" → Text.Signed {'_'} literal.toList value →
      SaidBy ["equal", name, literal] (equal name value)
  | square {name source} : name ≠ "" → source ≠ "" →
      SaidBy ["square", name, source] (square name source)
  | same {left right} : left ≠ "" → right ≠ "" → SaidBy ["same", left, right] (same left right)
  | log : SaidBy ["log"] log

/-- Why operands, from a position on, stand for no terms. The pairs are read in their order, and
    of each the weight comes first. -/
inductive NoTerms : Nat → List String → OperandFault → Prop
  | alone {position operand} : NoTerms position [operand] .unpaired
  | weight {position literal name operands} : (∀ weight, ¬Weight.Spelled literal.toList weight) →
      NoTerms position (literal :: name :: operands) (.weight literal)
  | unnamed {position literal weight operands} : Weight.Spelled literal.toList weight →
      NoTerms position (literal :: "" :: operands) (.unnamed (position + 1))
  | later {position literal weight name operands fault} : Weight.Spelled literal.toList weight →
      name ≠ "" → NoTerms (position + 2) operands fault →
      NoTerms position (literal :: name :: operands) fault

/-- Why operands do not fit an opcode. Each reason holds only where no earlier one does. -/
inductive Unfit : Opcode → List String → OperandFault → Prop
  | arity {opcode operands count} : opcode.operandCount = some count → operands.length ≠ count →
      Unfit opcode operands (.arity count operands.length)
  | input : Unfit .input [""] (.unnamed 1)
  | expression {name} : Unfit .commit [name, ""] .noExpression
  | commit {expression} : expression ≠ "" → Unfit .commit ["", expression] (.unnamed 1)
  | unpaired {operands} : operands.length < 3 ∨ operands.length % 2 = 0 →
      Unfit .sum operands .unpaired
  | terms {name operands fault} : operands ≠ [] → operands.length % 2 = 0 →
      NoTerms 2 operands fault → Unfit .sum (name :: operands) fault
  | sum {operands terms} : TermsSaid operands terms → terms ≠ [] →
      Unfit .sum ("" :: operands) (.unnamed 1)
  | equal {literal value} : Text.Signed {'_'} literal.toList value →
      Unfit .equal ["", literal] (.unnamed 1)
  | first {opcode second} : opcode = .square ∨ opcode = .same →
      Unfit opcode ["", second] (.unnamed 1)
  | second {opcode first} : opcode = .square ∨ opcode = .same → first ≠ "" →
      Unfit opcode [first, ""] (.unnamed 2)

/-- Why a record says no command. -/
inductive Refused (record : Record) : ScriptError → Prop
  | opcode : (∀ opcode : Opcode, record.opcode ≠ opcode.name) →
      Refused record (.unknownOpcode record.number record.opcode)
  | operands {opcode fault} : record.opcode = opcode.name → Unfit opcode record.operands fault →
      Refused record (.invalidOperands record.number opcode fault)
  | literal {name literal} : record.opcode = "equal" → record.operands = [name, literal] →
      (∀ value, ¬Text.Signed {'_'} literal.toList value) →
      Refused record (.invalidLiteral record.number literal)

/-! ## Terms -/

variable {position : Nat} {operands : List String} {terms : List (Weight × String)}
  {fault : OperandFault}

theorem nameAt_of_ne {name : String} (h : name ≠ "") : nameAt position name = .ok name := by
  rw [← String.isEmpty_iff.ne] at h
  exact if_neg h

theorem nameAt_empty (position : Nat) : nameAt position "" = .error (.unnamed position) := rfl

theorem TermsSaid.length (h : TermsSaid operands terms) : operands.length = 2 * terms.length := by
  induction h with
  | nil => rfl
  | cons _ _ _ ih =>
      rw [List.length_cons, List.length_cons, List.length_cons, ih]
      omega

theorem readTerms_of_said (h : TermsSaid operands terms) (position : Nat) :
    readTerms position operands = .ok terms := by
  induction h generalizing position with
  | nil => rfl
  | cons spelled named _ ih =>
      simp only [readTerms, Weight.ofChars?_iff.mpr spelled, nameAt_of_ne named, ih]
      rfl

theorem readTerms_of_noTerms (h : NoTerms position operands fault) :
    readTerms position operands = .error fault := by
  induction h with
  | alone => rfl
  | weight none =>
      simp only [readTerms, Weight.ofChars?_eq_none.mpr none]
      rfl
  | unnamed spelled =>
      simp only [readTerms, Weight.ofChars?_iff.mpr spelled, nameAt_empty]
      rfl
  | later spelled named _ ih =>
      simp only [readTerms, Weight.ofChars?_iff.mpr spelled, nameAt_of_ne named, ih]
      rfl

/-- Operands stand for terms or they do not, for some reason. -/
theorem said_or_noTerms (position : Nat) (operands : List String) :
    (∃ terms, TermsSaid operands terms) ∨ ∃ fault, NoTerms position operands fault := by
  fun_induction readTerms position operands with
  | case1 => exact .inl ⟨[], .nil⟩
  | case2 => exact .inr ⟨_, .alone⟩
  | case3 position literal name operands weight read ih =>
      have spelled := Weight.ofChars?_iff.mp read
      by_cases named : name = ""
      · rw [named]
        exact .inr ⟨_, .unnamed spelled⟩
      · rcases ih with ⟨terms, said⟩ | ⟨fault, none⟩
        · exact .inl ⟨_, .cons spelled named said⟩
        · exact .inr ⟨fault, .later spelled named none⟩
  | case4 position literal name operands unread =>
      exact .inr ⟨_, .weight fun weight spelled =>
        unread weight (Weight.ofChars?_iff.mpr spelled)⟩

theorem readSum_unpaired (h : operands.length < 3 ∨ operands.length % 2 = 0) :
    readSum operands = .error .unpaired := by
  unfold readSum
  split
  · next name literal operand rest =>
    rw [List.length_cons, List.length_cons, List.length_cons] at h
    exact if_neg (by omega)
  · rfl

theorem readSum_of_pairs (name : String) (nonempty : operands ≠ [])
    (even : operands.length % 2 = 0) :
    readSum (name :: operands) = (do
      let terms ← readTerms 2 operands
      let name ← nameAt 1 name
      return sum name terms) := by
  obtain ⟨literal, others, rfl⟩ := List.exists_cons_of_ne_nil nonempty
  cases others with
  | nil => cases even
  | cons operand rest =>
      rw [List.length_cons, List.length_cons] at even
      rw [readSum, if_pos (by omega)]

theorem readSum_of_said (name : String) (h : TermsSaid operands terms) (some : terms ≠ []) :
    readSum (name :: operands) = (nameAt 1 name).map fun name => sum name terms := by
  have even : operands.length % 2 = 0 := by rw [h.length, Nat.mul_mod_right]
  have nonempty : operands ≠ [] := by
    rintro rfl
    cases h
    exact some rfl
  rw [readSum_of_pairs name nonempty even, readTerms_of_said h]
  rfl

/-! ## Records -/

/-- A record whose opcode is known is decoded by its operands. -/
theorem ofRecord_known (number : Nat) (opcode : Opcode) (operands : List String) :
    ofRecord { number, fields := opcode.name :: operands } =
      ofOperands { number, fields := opcode.name :: operands } opcode := by
  have known : Opcode.ofName? (Record.opcode { number, fields := opcode.name :: operands }) =
      some opcode :=
    Opcode.ofName?_name opcode
  rw [ofRecord, known]

variable {record : Record} {command : Command}

/-- A record is decoded as what it says. -/
theorem ofRecord_of_said (number : Nat) {fields : List String} (h : SaidBy fields command) :
    ofRecord { number, fields } = .ok command := by
  cases h with
  | input named =>
      refine (ofRecord_known number .input _).trans ?_
      simp only [ofOperands, Record.operands, List.tail_cons, nameAt_of_ne named]
      rfl
  | commit named text =>
      refine (ofRecord_known number .commit _).trans ?_
      simp only [ofOperands, Record.operands, List.tail_cons, nameAt_of_ne named,
        String.isEmpty_iff, if_neg text]
      rfl
  | sum named said some =>
      refine (ofRecord_known number .sum _).trans ?_
      simp only [ofOperands, Record.operands, List.tail_cons, readSum_of_said _ said some,
        nameAt_of_ne named]
      rfl
  | equal named signed =>
      refine (ofRecord_known number .equal _).trans ?_
      simp only [ofOperands, Record.operands, List.tail_cons, nameAt_of_ne named,
        Text.integer?_iff.mpr signed]
      rfl
  | square first second =>
      refine (ofRecord_known number .square _).trans ?_
      simp only [ofOperands, Record.operands, List.tail_cons, nameAt_of_ne first,
        nameAt_of_ne second]
      rfl
  | same first second =>
      refine (ofRecord_known number .same _).trans ?_
      simp only [ofOperands, Record.operands, List.tail_cons, nameAt_of_ne first,
        nameAt_of_ne second]
      rfl
  | log => exact ofRecord_known number .log _

theorem ofOperands_of_other_count {opcode : Opcode} {count : Nat}
    (fixed : opcode.operandCount = some count) (other : record.operands.length ≠ count) :
    ofOperands record opcode =
      .error (.invalidOperands record.number opcode (.arity count record.operands.length)) := by
  unfold ofOperands
  dsimp only
  -- Each opcode has a case for the operands that fit, which their count excludes, and one for the
  -- others.
  split <;> cases fixed
  all_goals first
    | rfl
    | exact absurd (by rw [‹record.operands = _›]; rfl) other

/-- Operands that do not fit are refused for the reason why they do not. -/
theorem ofOperands_of_unfit {opcode : Opcode} (h : Unfit opcode record.operands fault) :
    ofOperands record opcode = .error (.invalidOperands record.number opcode fault) := by
  generalize given : record.operands = operands at h
  cases h with
  | arity fixed other =>
      subst given
      exact ofOperands_of_other_count fixed other
  | input => simp only [ofOperands, given, nameAt_empty]; rfl
  | expression => simp only [ofOperands, given]; rfl
  | commit text => simp only [ofOperands, given, nameAt_empty, String.isEmpty_iff, if_neg text]; rfl
  | unpaired odd => simp only [ofOperands, given, readSum_unpaired odd]; rfl
  | terms nonempty even none =>
      simp only [ofOperands, given, readSum_of_pairs _ nonempty even, readTerms_of_noTerms none]
      rfl
  | sum said some => simp only [ofOperands, given, readSum_of_said _ said some, nameAt_empty]; rfl
  | equal signed => simp only [ofOperands, given, nameAt_empty, Text.integer?_iff.mpr signed]; rfl
  | first which =>
      rcases which with rfl | rfl
      · simp only [ofOperands, given, nameAt_empty]; rfl
      · simp only [ofOperands, given, nameAt_empty]; rfl
  | second which named =>
      rcases which with rfl | rfl
      · simp only [ofOperands, given, nameAt_empty, nameAt_of_ne named]; rfl
      · simp only [ofOperands, given, nameAt_empty, nameAt_of_ne named]; rfl

theorem ofRecord_of_refused {fault : ScriptError} (h : Refused record fault) :
    ofRecord record = .error fault := by
  cases h with
  | opcode unknown => rw [ofRecord, Opcode.ofName?_eq_none.mpr unknown]
  | operands known unfit =>
      rw [ofRecord, Opcode.ofName?_eq_some.mpr known]
      exact ofOperands_of_unfit unfit
  | @literal name literal known given none =>
      have unread : Text.integer? literal.toList = .none :=
        Option.eq_none_iff_forall_ne_some.mpr fun value reads =>
          none value (Text.integer?_iff.mp reads)
      have equal : Opcode.ofName? record.opcode = some .equal := Opcode.ofName?_eq_some.mpr known
      rw [ofRecord, equal]
      simp only [ofOperands, given, unread]

theorem named_or_unfit {opcode : Opcode} (which : opcode = .square ∨ opcode = .same)
    (operands : List String) :
    (∃ first second, operands = [first, second] ∧ first ≠ "" ∧ second ≠ "") ∨
      ∃ fault, Unfit opcode operands fault := by
  have fixed : opcode.operandCount = some 2 := by rcases which with rfl | rfl <;> rfl
  by_cases count : operands.length = 2
  · obtain ⟨first, second, rfl⟩ := List.length_eq_two.mp count
    by_cases named : first = ""
    · rw [named]
      exact .inr ⟨_, .first which⟩
    · by_cases named' : second = ""
      · rw [named']
        exact .inr ⟨_, .second which named⟩
      · exact .inl ⟨first, second, rfl, named, named'⟩
  · exact .inr ⟨_, .arity fixed count⟩

/-- Operands make a command with their opcode, or they do not fit it. A claimed value that is no
    literal is told apart from both. -/
theorem says_or_unfit (opcode : Opcode) (operands : List String) :
    (∃ command, SaidBy (opcode.name :: operands) command) ∨
      (∃ fault, Unfit opcode operands fault) ∨
      opcode = .equal ∧ ∃ name literal, operands = [name, literal] ∧
        ∀ value, ¬Text.Signed {'_'} literal.toList value := by
  cases opcode with
  | input =>
      by_cases count : operands.length = 1
      · obtain ⟨name, rfl⟩ := List.length_eq_one_iff.mp count
        by_cases named : name = ""
        · rw [named]
          exact .inr (.inl ⟨_, .input⟩)
        · exact .inl ⟨_, .input named⟩
      · exact .inr (.inl ⟨_, .arity rfl count⟩)
  | commit =>
      by_cases count : operands.length = 2
      · obtain ⟨name, expression, rfl⟩ := List.length_eq_two.mp count
        by_cases text : expression = ""
        · rw [text]
          exact .inr (.inl ⟨_, .expression⟩)
        · by_cases named : name = ""
          · rw [named]
            exact .inr (.inl ⟨_, .commit text⟩)
          · exact .inl ⟨_, .commit named text⟩
      · exact .inr (.inl ⟨_, .arity rfl count⟩)
  | sum =>
      by_cases unpaired : operands.length < 3 ∨ operands.length % 2 = 0
      · exact .inr (.inl ⟨_, .unpaired unpaired⟩)
      · obtain ⟨name, pairs, rfl⟩ := List.exists_cons_of_length_pos (l := operands) (by omega)
        rw [List.length_cons] at unpaired
        have nonempty : pairs ≠ [] := List.ne_nil_of_length_pos (by omega)
        have even : pairs.length % 2 = 0 := by omega
        rcases said_or_noTerms 2 pairs with ⟨terms, said⟩ | ⟨fault, none⟩
        · have some : terms ≠ [] := by
            rintro rfl
            cases said
            exact nonempty rfl
          by_cases named : name = ""
          · rw [named]
            exact .inr (.inl ⟨_, .sum said some⟩)
          · exact .inl ⟨_, .sum named said some⟩
        · exact .inr (.inl ⟨fault, .terms nonempty even none⟩)
  | equal =>
      by_cases count : operands.length = 2
      · obtain ⟨name, literal, rfl⟩ := List.length_eq_two.mp count
        by_cases signed : ∃ value, Text.Signed {'_'} literal.toList value
        · obtain ⟨value, signed⟩ := signed
          by_cases named : name = ""
          · rw [named]
            exact .inr (.inl ⟨_, .equal signed⟩)
          · exact .inl ⟨_, .equal named signed⟩
        · exact .inr (.inr ⟨rfl, name, literal, rfl, not_exists.mp signed⟩)
      · exact .inr (.inl ⟨_, .arity rfl count⟩)
  | square =>
      rcases named_or_unfit (.inl rfl) operands with ⟨first, second, rfl, named, named'⟩ | unfit
      · exact .inl ⟨_, .square named named'⟩
      · exact .inr (.inl unfit)
  | same =>
      rcases named_or_unfit (.inr rfl) operands with ⟨first, second, rfl, named, named'⟩ | unfit
      · exact .inl ⟨_, .same named named'⟩
      · exact .inr (.inl unfit)
  | log =>
      by_cases count : operands.length = 0
      · rw [List.length_eq_zero_iff.mp count]
        exact .inl ⟨_, .log⟩
      · exact .inr (.inl ⟨_, .arity rfl count⟩)

/-- A record says a command or there is a reason why it does not. -/
theorem says_or_refused (record : Record) :
    (∃ command, SaidBy record.fields command) ∨ ∃ fault, Refused record fault := by
  by_cases known : ∃ opcode : Opcode, record.opcode = opcode.name
  · obtain ⟨opcode, known⟩ := known
    have nonempty : record.fields ≠ [] := by
      intro none
      rw [Record.opcode, none] at known
      exact opcode.name_ne_empty known.symm
    have fields : record.fields = opcode.name :: record.operands := by
      obtain ⟨name, operands, whole⟩ := List.exists_cons_of_ne_nil nonempty
      rw [← known, Record.opcode, Record.operands, whole]
      rfl
    rcases says_or_unfit opcode record.operands with
      said | ⟨fault, unfit⟩ | ⟨rfl, name, literal, given, none⟩
    · rw [fields]
      exact .inl said
    · exact .inr ⟨_, .operands known unfit⟩
    · exact .inr ⟨_, .literal known given none⟩
  · exact .inr ⟨_, .opcode (not_exists.mp known)⟩

/-- A record is decoded just as what it says. -/
theorem ofRecord_eq_ok : ofRecord record = .ok command ↔ SaidBy record.fields command := by
  refine ⟨fun decoded => ?_, ofRecord_of_said record.number⟩
  rcases says_or_refused record with ⟨command', said⟩ | ⟨fault, refused⟩
  · obtain rfl := Except.ok.inj (decoded.symm.trans (ofRecord_of_said record.number said))
    exact said
  · cases decoded.symm.trans (ofRecord_of_refused refused)

theorem ofRecord_eq_error {fault : ScriptError} :
    ofRecord record = .error fault ↔ Refused record fault := by
  refine ⟨fun failed => ?_, ofRecord_of_refused⟩
  rcases says_or_refused record with ⟨command, said⟩ | ⟨fault', refused⟩
  · cases failed.symm.trans (ofRecord_of_said record.number said)
  · obtain rfl := Except.error.inj (failed.symm.trans (ofRecord_of_refused refused))
    exact refused

end Command

end CommitScript

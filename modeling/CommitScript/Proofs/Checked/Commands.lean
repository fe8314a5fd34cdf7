import CommitScript.Proofs.Checked.Basic
import CommitScript.Script.Basic

/-! # Checked reading of commands

The operands of a record are taken by their places. Each place is asked for only behind a look at
how many operands there are, and the places of a sum's terms come in pairs up to the last one.
-/

namespace CommitScript.Command

section Operands

variable (operands : List String)

/-- Asks for a number of operands. -/
def checkArity (expected : Nat) : CheckedTry OperandFault Unit :=
  if operands.length = expected then pure () else throw (.arity expected operands.length)

/-- The operand at a place, which has to name a variable. -/
def nameChecked (place : Nat) : CheckedTry OperandFault String := do
  let operand ← (Checked.item operands place : Checked String)
  CheckedTry.ofExcept (nameAt (place + 1) operand)

/-- The term of a sum whose weight is at a place. -/
def termChecked (place : Nat) : CheckedTry OperandFault (Weight × String) := do
  let literal ← (Checked.item operands place : Checked String)
  let some weight := Weight.ofChars? literal.toList | throw (.weight literal)
  let name ← nameChecked operands (place + 1)
  return (weight, name)

/-- The parts of a sum. Every other place from the second one on holds a weight. -/
def sumChecked : CheckedTry OperandFault Command :=
  if operands.length < 3 ∨ operands.length % 2 = 0 then throw .unpaired
  else do
    let terms ← (List.range' 1 (operands.length / 2) 2).mapM (termChecked operands)
    let name ← nameChecked operands 0
    return sum name terms

def inputChecked : CheckedTry OperandFault Command := do
  checkArity operands 1
  let name ← nameChecked operands 0
  return input name

/-- The parts of a commitment; the expression comes before the name. -/
def commitChecked : CheckedTry OperandFault Command := do
  checkArity operands 2
  let expression ← (Checked.item operands 1 : Checked String)
  if expression.isEmpty then throw .noExpression
  else do
    let name ← nameChecked operands 0
    return commit name expression

/-- The parts of a command that has two names. -/
def pairChecked (make : String → String → Command) : CheckedTry OperandFault Command := do
  checkArity operands 2
  let first ← nameChecked operands 0
  let second ← nameChecked operands 1
  return make first second

def logChecked : CheckedTry OperandFault Command := do
  checkArity operands 0
  return log

end Operands

/-- Decodes the operands of a record whose opcode is known. -/
def ofOperandsChecked (record : Record) (opcode : Opcode) : CheckedTry ScriptError Command :=
  let operands := record.operands
  let refuse := ScriptError.invalidOperands record.number opcode
  match opcode with
  | .input => (inputChecked operands).mapError refuse
  | .commit => (commitChecked operands).mapError refuse
  | .sum => (sumChecked operands).mapError refuse
  | .equal => do
      (checkArity operands 2).mapError refuse
      let literal ← (Checked.item operands 1 : Checked String)
      let some value := Text.integer? literal.toList
        | throw (.invalidLiteral record.number literal)
      let name ← (nameChecked operands 0).mapError refuse
      return equal name value
  | .square => (pairChecked operands square).mapError refuse
  | .same => (pairChecked operands same).mapError refuse
  | .log => (logChecked operands).mapError refuse

def ofRecordChecked (record : Record) : CheckedTry ScriptError Command :=
  match Opcode.ofName? record.opcode with
  | none => throw (.unknownOpcode record.number record.opcode)
  | some opcode => ofOperandsChecked record opcode

theorem nameChecked_eq {operands : List String} {place : Nat} {operand : String}
    (h : operands[place]? = some operand) :
    nameChecked operands place = CheckedTry.ofExcept (nameAt (place + 1) operand) := by
  rw [nameChecked, Checked.item_of_eq_some h, CheckedTry.lift_pure, pure_bind]

/-- Going on in steps of two takes the terms one after the other. -/
theorem mapM_termChecked (front rest : List String) {count : Nat}
    (even : rest.length = 2 * count) :
    (List.range' front.length count 2).mapM (termChecked (front ++ rest)) =
      CheckedTry.ofExcept (readTerms (front.length + 1) rest) := by
  induction count generalizing front rest with
  | zero =>
      rw [List.length_eq_zero_iff.mp even]
      rfl
  | succ count ih =>
      obtain ⟨literal, operand, rest, rfl⟩ : ∃ a b others, rest = a :: b :: others := by
        rcases rest with _ | ⟨a, _ | ⟨b, others⟩⟩
        · cases even
        · simp only [List.length_cons, List.length_nil] at even
          omega
        · exact ⟨a, b, others, rfl⟩
      have weightAt : (front ++ literal :: operand :: rest)[front.length]? = some literal := by
        simp
      have nameAt : (front ++ literal :: operand :: rest)[front.length + 1]? = some operand := by
        simp
      have others := ih (front ++ [literal, operand]) rest
        (by simp only [List.length_cons] at even; omega)
      rw [List.append_assoc, List.length_append] at others
      rw [List.range'_succ, List.mapM_cons, termChecked, Checked.item_of_eq_some weightAt,
        nameChecked_eq nameAt, readTerms, CheckedTry.lift_pure, pure_bind]
      cases Weight.ofChars? literal.toList with
      | none => rfl
      | some weight =>
          dsimp only
          rw [bind_assoc]
          refine CheckedTry.ofExcept_bind fun name _ => ?_
          rw [pure_bind]
          exact others ▸ CheckedTry.ofExcept_bind fun _ _ => rfl

theorem sumChecked_eq (operands : List String) :
    sumChecked operands = CheckedTry.ofExcept (readSum operands) := by
  rw [sumChecked]
  rcases operands with _ | ⟨name, _ | ⟨literal, _ | ⟨operand, rest⟩⟩⟩
  · rfl
  · rfl
  · rfl
  · rw [readSum]
    by_cases even : rest.length % 2 = 0
    · have count : (name :: literal :: operand :: rest).length / 2 = rest.length / 2 + 1 := by
        simp only [List.length_cons]
        omega
      have pairs : (List.range' 1 (rest.length / 2 + 1) 2).mapM
          (termChecked (name :: literal :: operand :: rest)) =
            CheckedTry.ofExcept (readTerms 2 (literal :: operand :: rest)) :=
        mapM_termChecked [name] _ (by simp only [List.length_cons]; omega)
      rw [if_neg (by simp only [List.length_cons]; omega), if_pos even, count, pairs,
        nameChecked_eq rfl]
      exact CheckedTry.ofExcept_bind fun _ _ => CheckedTry.ofExcept_bind fun _ _ => rfl
    · rw [if_pos (by simp only [List.length_cons]; omega), if_neg even]
      rfl

theorem inputChecked_eq (name : String) :
    inputChecked [name] = CheckedTry.ofExcept ((nameAt 1 name).map input) := by
  rw [inputChecked, nameChecked_eq rfl]
  exact CheckedTry.ofExcept_map _ _

theorem commitChecked_eq (name expression : String) :
    commitChecked [name, expression] =
      CheckedTry.ofExcept (if expression.isEmpty then .error .noExpression
        else (nameAt 1 name).map fun name => commit name expression) := by
  change (if expression.isEmpty then throw .noExpression
    else nameChecked [name, expression] 0 >>= fun name => pure (commit name expression)) = _
  rw [nameChecked_eq rfl]
  split
  · rfl
  · exact CheckedTry.ofExcept_map _ _

theorem pairChecked_eq (make : String → String → Command) (first second : String) :
    pairChecked [first, second] make = CheckedTry.ofExcept do
      let first ← nameAt 1 first
      let second ← nameAt 2 second
      return make first second := by
  rw [pairChecked, nameChecked_eq rfl, nameChecked_eq rfl]
  exact CheckedTry.ofExcept_bind fun _ _ => CheckedTry.ofExcept_bind fun _ _ => rfl

theorem ofOperandsChecked_eq (record : Record) (opcode : Opcode) :
    ofOperandsChecked record opcode = CheckedTry.ofExcept (ofOperands record opcode) := by
  unfold ofOperandsChecked ofOperands
  generalize record.operands = operands
  cases opcode with
  | input =>
      rcases operands with _ | ⟨name, _ | ⟨more, rest⟩⟩
      · rfl
      · dsimp only
        rw [inputChecked_eq]
        cases nameAt 1 name <;> rfl
      · rfl
  | log =>
      rcases operands with _ | ⟨more, rest⟩
      · rfl
      · rfl
  | sum =>
      dsimp only
      rw [sumChecked_eq]
      cases readSum operands <;> rfl
  | commit =>
      rcases operands with _ | ⟨name, _ | ⟨expression, _ | ⟨more, rest⟩⟩⟩
      · rfl
      · rfl
      · dsimp only
        rw [commitChecked_eq]
        split
        · rfl
        · cases nameAt 1 name <;> rfl
      · rfl
  | equal =>
      rcases operands with _ | ⟨name, _ | ⟨literal, _ | ⟨more, rest⟩⟩⟩
      · rfl
      · rfl
      · dsimp only
        change (do
          let some value := Text.integer? literal.toList
            | throw (.invalidLiteral record.number literal)
          let name ← (nameChecked [name, literal] 0).mapError _
          return equal name value : CheckedTry ScriptError Command) = _
        rw [nameChecked_eq rfl]
        cases Text.integer? literal.toList with
        | none => rfl
        | some value => cases nameAt 1 name <;> rfl
      · rfl
  | square =>
      rcases operands with _ | ⟨first, _ | ⟨second, _ | ⟨more, rest⟩⟩⟩
      · rfl
      · rfl
      · dsimp only
        rw [pairChecked_eq]
        cases nameAt 1 first with
        | error fault => rfl
        | ok first => cases nameAt 2 second <;> rfl
      · rfl
  | same =>
      rcases operands with _ | ⟨first, _ | ⟨second, _ | ⟨more, rest⟩⟩⟩
      · rfl
      · rfl
      · dsimp only
        rw [pairChecked_eq]
        cases nameAt 1 first with
        | error fault => rfl
        | ok first => cases nameAt 2 second <;> rfl
      · rfl

theorem ofRecordChecked_eq (record : Record) :
    ofRecordChecked record = CheckedTry.ofExcept (ofRecord record) := by
  rw [ofRecordChecked, ofRecord]
  cases Opcode.ofName? record.opcode with
  | none => rfl
  | some opcode => exact ofOperandsChecked_eq record opcode

end CommitScript.Command

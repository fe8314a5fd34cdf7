import CommitScript.Proofs.Checked.Commands
import CommitScript.Run.Receipt

/-! # Checked reading of texts

A reader of records that knows how many bytes of a text it has taken and cuts the text there to
see what is left. That cut is checked: it has to fall inside the text, and between two
characters, however many bytes each of them takes. The main statements say that reading a script
or a receipt in this way never panics, and gives what reading the characters one by one gives.
-/

namespace CommitScript

open Checked

/-- A place in a text of records, in bytes. -/
structure ByteCursor where
  source : List Char
  /-- How many bytes have been taken. -/
  position : Nat := 0
  /-- How many records have been read, blank ones included. -/
  count : Nat := 0
  deriving Repr, DecidableEq

namespace ByteCursor

def ofString (text : String) : ByteCursor :=
  { source := text.toList }

/-- The text not taken yet. -/
def remaining (cursor : ByteCursor) : Checked (List Char) :=
  dropBytes cursor.source cursor.position

/-- A field without the blank characters around it. -/
def trimmed (field : List Char) : String :=
  String.ofList (Text.trim field)

/-- Reads on in a record, of which some fields, the start of the next one and a number of bytes
    have been read. Gives the fields and the bytes up to behind the first semicolon. -/
def scan : (offset : Nat) → (fields : List String) → (field : List Char) → List Char →
    Option (List String × Nat)
  | _, _, _, [] => none
  | _, _, _, '@' :: [] => none
  | offset, fields, field, '@' :: c :: text =>
      scan (offset + '@'.utf8Size + c.utf8Size) fields (field ++ [c]) text
  | offset, fields, field, ',' :: text =>
      scan (offset + ','.utf8Size) (fields ++ [trimmed field]) [] text
  | offset, fields, field, ';' :: _ =>
      some (fields ++ [trimmed field], offset + ';'.utf8Size)
  | offset, fields, field, c :: text => scan (offset + c.utf8Size) fields (field ++ [c]) text

/-- What reading on gives, by the fields of the whole record and the text behind it. -/
theorem scan_eq_some {text rest : List Char} {split : List (List Char)}
    (h : splitRecord text = some (split, rest)) (offset : Nat) (fields : List String)
    (field : List Char) :
    ∃ front, text = front ++ rest ∧
      scan offset fields field text =
        some (fields ++ (field.foldr extendFirst split).map trimmed, offset + textBytes front) := by
  fun_induction splitRecord text generalizing split rest offset fields field with
  | case1 => cases h
  | case2 => cases h
  | case3 c text ih =>
      obtain ⟨⟨split, rest⟩, found, same⟩ := Option.map_eq_some_iff.mp h
      cases same
      obtain ⟨front, rfl, read⟩ :=
        ih found (offset + '@'.utf8Size + c.utf8Size) fields (field ++ [c])
      refine ⟨'@' :: c :: front, rfl, ?_⟩
      rw [scan, read, List.foldr_append, textBytes_cons, textBytes_cons, Nat.add_assoc,
        Nat.add_assoc]
      rfl
  | case4 text ih =>
      obtain ⟨⟨split, rest⟩, found, same⟩ := Option.map_eq_some_iff.mp h
      cases same
      obtain ⟨front, rfl, read⟩ := ih found (offset + ','.utf8Size) (fields ++ [trimmed field]) []
      refine ⟨',' :: front, rfl, ?_⟩
      rw [scan, read, foldr_extendFirst, textBytes_cons, Nat.add_assoc, List.append_assoc,
        List.append_nil]
      rfl
  | case5 text =>
      cases h
      refine ⟨[';'], rfl, ?_⟩
      rw [scan, foldr_extendFirst, List.append_nil]
      rfl
  | case6 c text notDangling notEscape notComma notEnd ih =>
      obtain ⟨⟨split, rest⟩, found, same⟩ := Option.map_eq_some_iff.mp h
      cases same
      obtain ⟨front, rfl, read⟩ := ih found (offset + c.utf8Size) fields (field ++ [c])
      refine ⟨c :: front, rfl, ?_⟩
      rw [scan]
      · rw [read, List.foldr_append, textBytes_cons, Nat.add_assoc]
        rfl
      all_goals assumption

theorem scan_eq_none {text : List Char} (h : splitRecord text = none) (offset : Nat)
    (fields : List String) (field : List Char) : scan offset fields field text = none := by
  fun_induction splitRecord text generalizing offset fields field with
  | case1 => rfl
  | case2 => rfl
  | case3 c text ih => exact ih (Option.map_eq_none_iff.mp h) _ _ _
  | case4 text ih => exact ih (Option.map_eq_none_iff.mp h) _ _ _
  | case5 text => cases h
  | case6 c text notDangling notEscape notComma notEnd ih =>
      rw [scan]
      · exact ih (Option.map_eq_none_iff.mp h) _ _ _
      all_goals assumption

/-- Reads a record. Where there is none, nothing is taken. -/
def readRecord (cursor : ByteCursor) : Checked (Option (List String) × ByteCursor) := do
  let text ← cursor.remaining
  match scan 0 [] [] text with
  | some (fields, size) =>
      return (some fields,
        { cursor with position := cursor.position + size, count := cursor.count + 1 })
  | none => return (none, { cursor with count := cursor.count + 1 })

/-- The end of the text. -/
def atEnd (cursor : ByteCursor) : ByteCursor :=
  { cursor with position := textBytes cursor.source }

/-- How many characters are left. -/
def left (cursor : ByteCursor) : Nat :=
  match cursor.remaining with
  | .ok text => text.length
  | .error _ => 0

/-- Whether a place in bytes is the place of a cursor. -/
structure At (bytes : ByteCursor) (front : List Char) (cursor : RecordCursor) : Prop where
  source : bytes.source = front ++ cursor.rest
  position : bytes.position = textBytes front
  count : bytes.count = cursor.count

namespace At

variable {bytes : ByteCursor} {front : List Char} {cursor : RecordCursor}

theorem remaining (place : bytes.At front cursor) : bytes.remaining = pure cursor.rest := by
  rw [ByteCursor.remaining, place.source, place.position, dropBytes_append]

theorem atEnd (place : bytes.At front cursor) :
    bytes.atEnd.At bytes.source { cursor with rest := [] } where
  source := (List.append_nil _).symm
  position := rfl
  count := place.count

theorem left (place : bytes.At front cursor) : bytes.left = cursor.rest.length := by
  rw [ByteCursor.left, place.remaining]
  rfl

theorem readRecord_eq_none (place : bytes.At front cursor)
    (h : splitRecord cursor.rest = none) :
    ∃ after, bytes.readRecord = pure (none, after) ∧
      after.At front { cursor with count := cursor.count + 1 } := by
  refine ⟨_, by rw [ByteCursor.readRecord, place.remaining, pure_bind, scan_eq_none h], ?_⟩
  exact ⟨place.source, place.position, congrArg (· + 1) place.count⟩

theorem readRecord_eq_some (place : bytes.At front cursor) {split : List (List Char)}
    {rest : List Char} (h : splitRecord cursor.rest = some (split, rest)) :
    ∃ after front', bytes.readRecord = pure (some (split.map trimmed), after) ∧
      after.At front' { rest, count := cursor.count + 1 } := by
  obtain ⟨taken, same, read⟩ := scan_eq_some h 0 [] []
  refine ⟨_, front ++ taken,
    by rw [ByteCursor.readRecord, place.remaining, pure_bind, read]; rfl, ?_⟩
  exact {
    source := by rw [place.source, same, List.append_assoc]
    position := by rw [Nat.zero_add, place.position, textBytes_append]
    count := congrArg (· + 1) place.count }

end At

/-- Every place from which the text that is left can be cut off lies between two characters. -/
theorem exists_at {bytes : ByteCursor} {text : List Char} (h : bytes.remaining = pure text) :
    ∃ front, bytes.At front { rest := text, count := bytes.count } := by
  obtain ⟨front, source, position⟩ := dropBytes_eq_ok h
  exact ⟨front, source, position.symm, rfl⟩

/-- Reading a record takes characters off the text. -/
theorem left_readRecord {bytes after : ByteCursor} {fields : List String}
    (h : bytes.readRecord = pure (some fields, after)) : after.left < bytes.left := by
  cases cut : bytes.remaining with
  | error panic =>
      rw [readRecord, cut] at h
      cases h
  | ok text =>
      obtain ⟨front, place⟩ := exists_at cut
      cases found : splitRecord text with
      | none =>
          obtain ⟨after', read, -⟩ := place.readRecord_eq_none found
          rw [read] at h
          cases h
      | some parts =>
          obtain ⟨split, rest⟩ := parts
          obtain ⟨after', front', read, place'⟩ := place.readRecord_eq_some found
          rw [read] at h
          cases h
          rw [place.left, place'.left]
          exact splitRecord_length found

/-- Reads the next record that is not blank. -/
def next (cursor : ByteCursor) : Checked (Option (Except ScriptError Record) × ByteCursor) :=
  match cursor.remaining with
  | .error panic => .error panic
  | .ok text =>
      if Text.allBlank text then
        .ok (none, cursor.atEnd)
      else
        match _read : cursor.readRecord with
        | .error panic => .error panic
        | .ok (none, after) => .ok (some (.error (.unterminated after.count)), after.atEnd)
        | .ok (some fields, after) =>
            if fields.all String.isEmpty then
              next after
            else
              .ok (some (.ok { number := after.count, fields }), after)
termination_by cursor.left
decreasing_by exact left_readRecord _read

section Steps

variable {bytes after : ByteCursor} {text : List Char} (cut : bytes.remaining = pure text)
include cut

theorem next_of_blank (blank : Text.allBlank text) : bytes.next = pure (none, bytes.atEnd) := by
  rw [next, cut]
  exact if_pos blank

theorem next_of_none (blank : ¬Text.allBlank text)
    (read : bytes.readRecord = pure (none, after)) :
    bytes.next = pure (some (.error (.unterminated after.count)), after.atEnd) := by
  rw [next, cut]
  change (if _ then _ else _) = _
  rw [if_neg blank]
  split <;> cases read.symm.trans ‹_›
  rfl

theorem next_of_some (blank : ¬Text.allBlank text) {fields : List String}
    (read : bytes.readRecord = pure (some fields, after)) :
    bytes.next = if fields.all String.isEmpty then after.next
      else pure (some (.ok { number := after.count, fields }), after) := by
  rw [next, cut]
  change (if _ then _ else _) = _
  rw [if_neg blank]
  split <;> cases read.symm.trans ‹_›
  rfl

end Steps

/-- The next record is the one that reading the characters one by one gives. -/
theorem next_eq {bytes : ByteCursor} {front : List Char} {cursor : RecordCursor}
    (place : bytes.At front cursor) :
    ∃ after front', bytes.next = pure (cursor.next.1, after) ∧ after.At front' cursor.next.2 := by
  fun_induction RecordCursor.next cursor generalizing bytes front
  case case1 cursor blank =>
    exact ⟨bytes.atEnd, bytes.source, next_of_blank place.remaining blank, place.atEnd⟩
  case case2 cursor blank number found =>
    obtain ⟨after, read, place'⟩ := place.readRecord_eq_none found
    refine ⟨after.atEnd, after.source, ?_, place'.atEnd⟩
    rw [next_of_none place.remaining blank read, place'.count]
  case case3 cursor blank number split rest found fields empty ih =>
    obtain ⟨after, front', read, place'⟩ := place.readRecord_eq_some found
    have again : bytes.next = after.next :=
      (next_of_some place.remaining blank read).trans (if_pos empty)
    rw [again]
    exact ih place'
  case case4 cursor blank number split rest found fields filled =>
    obtain ⟨after, front', read, place'⟩ := place.readRecord_eq_some found
    refine ⟨after, front', (next_of_some place.remaining blank read).trans ?_, place'⟩
    rw [place'.count]
    exact if_neg filled

/-- Going on to the next record takes characters off the text. -/
theorem left_next {bytes after : ByteCursor} {result : Except ScriptError Record}
    (h : bytes.next = pure (some result, after)) : after.left < bytes.left := by
  cases cut : bytes.remaining with
  | error panic =>
      rw [next, cut] at h
      cases h
  | ok text =>
      obtain ⟨front, place⟩ := exists_at cut
      obtain ⟨after', front', read, place'⟩ := next_eq place
      obtain ⟨found, rfl⟩ := Prod.mk.inj (Except.ok.inj (read.symm.trans h))
      rw [place.left, place'.left]
      exact RecordCursor.next_rest_length (Prod.ext found rfl)

section Collect

variable {α : Type} (decode : Record → CheckedTry ScriptError α)

/-- Decodes the records from a place to the end of the text, up to the first fault. -/
def collect (cursor : ByteCursor) : CheckedTry ScriptError (List α) :=
  match _step : cursor.next with
  | .error panic => .mk (.error panic)
  | .ok (none, _) => pure []
  | .ok (some (.error fault), _) => throw fault
  | .ok (some (.ok record), after) => do
      let a ← decode record
      let others ← collect after
      return a :: others
termination_by cursor.left
decreasing_by exact left_next _step

variable {bytes after : ByteCursor}

theorem collect_of_none (h : bytes.next = pure (none, after)) : bytes.collect decode = pure [] := by
  rw [collect]
  split <;> cases h.symm.trans ‹_›
  rfl

theorem collect_of_error {fault : ScriptError}
    (h : bytes.next = pure (some (.error fault), after)) :
    bytes.collect decode = throw fault := by
  rw [collect]
  split <;> cases h.symm.trans ‹_›
  rfl

theorem collect_of_ok {record : Record} (h : bytes.next = pure (some (.ok record), after)) :
    bytes.collect decode = do
      let a ← decode record
      let others ← after.collect decode
      return a :: others := by
  rw [collect]
  split <;> cases h.symm.trans ‹_›
  rfl

end Collect

/-- Decoding all records as commands reads a script. -/
theorem collect_commands {bytes : ByteCursor} {front : List Char} {cursor : RecordCursor}
    (place : bytes.At front cursor) :
    bytes.collect Command.ofRecordChecked = CheckedTry.ofExcept (Script.readCommands cursor) := by
  fun_induction Script.readCommands cursor generalizing bytes front
  case case1 cursor after step =>
    obtain ⟨after', front', read, -⟩ := next_eq place
    rw [step] at read
    rw [collect_of_none _ read]
    rfl
  case case2 cursor fault after step =>
    obtain ⟨after', front', read, -⟩ := next_eq place
    rw [step] at read
    rw [collect_of_error _ read]
    rfl
  case case3 cursor record after step ih =>
    obtain ⟨after', front', read, place'⟩ := next_eq place
    rw [step] at read place'
    rw [collect_of_ok _ read, Command.ofRecordChecked_eq, ih place']
    exact CheckedTry.ofExcept_bind fun _ _ => CheckedTry.ofExcept_bind fun _ _ => rfl

/-- Keeping all records gives the records of the text. -/
theorem collect_records {bytes : ByteCursor} {front : List Char} {cursor : RecordCursor}
    (place : bytes.At front cursor) :
    bytes.collect (fun record => pure record.fields) =
      CheckedTry.ofExcept (cursor.readAll.map (List.map Record.fields)) := by
  fun_induction RecordCursor.readAll cursor generalizing bytes front
  case case1 cursor after step =>
    obtain ⟨after', front', read, -⟩ := next_eq place
    rw [step] at read
    rw [collect_of_none _ read]
    rfl
  case case2 cursor fault after step =>
    obtain ⟨after', front', read, -⟩ := next_eq place
    rw [step] at read
    rw [collect_of_error _ read]
    rfl
  case case3 cursor record after step ih =>
    obtain ⟨after', front', read, place'⟩ := next_eq place
    rw [step] at read place'
    rw [collect_of_ok _ read, pure_bind, ih place']
    cases after.readAll <;> rfl

theorem ofString_at (text : String) : (ofString text).At [] (.ofString text) :=
  ⟨rfl, rfl, rfl⟩

end ByteCursor

def Script.readChecked (text : String) : CheckedTry ScriptError Script := do
  let commands ← (ByteCursor.ofString text).collect Command.ofRecordChecked
  return { commands }

def Receipt.readChecked (text : String) : CheckedTry RunError Receipt := do
  let records ← ((ByteCursor.ofString text).collect fun record =>
    pure record.fields).mapError .script
  return { records }

theorem Script.readChecked_eq (text : String) :
    Script.readChecked text = CheckedTry.ofExcept (Script.read text) := by
  rw [readChecked, ByteCursor.collect_commands (ByteCursor.ofString_at text)]
  exact CheckedTry.ofExcept_map _ _

theorem Receipt.readChecked_eq (text : String) :
    Receipt.readChecked text = CheckedTry.ofExcept (Receipt.read text) := by
  rw [readChecked, ByteCursor.collect_records (ByteCursor.ofString_at text), read]
  cases (RecordCursor.ofString text).readAll <;> rfl

end CommitScript

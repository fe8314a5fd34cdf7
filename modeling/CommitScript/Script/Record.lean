import CommitScript.Text.Blank
import CommitScript.Script.Error

/-! # Records

Scripts and receipts are written alike, as a stream of records. Fields are separated by a
comma, a record ends with a semicolon, and an at sign makes the character after it an
ordinary one. Fields lose the blank characters around them; records without any text are
skipped but counted. The main statement says that the fields of a written record, before
they are trimmed, are the fields that were written.
-/

namespace CommitScript

structure Record where
  /-- Position in the text, counted from one. -/
  number : Nat
  /-- The fields, unescaped and trimmed. -/
  fields : List String
  deriving Repr, DecidableEq

namespace Record

/-- The leading field. -/
def opcode (record : Record) : String :=
  record.fields.headD ""

/-- The fields after the leading one. -/
def operands (record : Record) : List String :=
  record.fields.tail

/-- Whether a character has a meaning of its own in a text of records. -/
def isMark (c : Char) : Bool :=
  c == '@' || c == ',' || c == ';'

/-- A field with every mark made an ordinary character. -/
def escapeChars : List Char → List Char
  | [] => []
  | c :: rest => if isMark c then '@' :: c :: escapeChars rest else c :: escapeChars rest

/-- A field as it is written, so that it reads back as one field. -/
def escape (field : String) : String :=
  String.ofList (escapeChars field.toList)

/-- Fields as one terminated record, without a line break after it. -/
def write (fields : List String) : String :=
  ",".intercalate (fields.map escape) ++ ";"

end Record

/-- Puts a character in front of the first field. -/
def extendFirst (c : Char) : List (List Char) → List (List Char)
  | [] => [[c]]
  | field :: fields => (c :: field) :: fields

/-- Splits a text at its first unescaped semicolon into the unescaped fields before it and
    the text after it; nothing when there is no such semicolon. -/
def splitRecord : List Char → Option (List (List Char) × List Char)
  | [] => none
  | '@' :: [] => none
  | '@' :: c :: text => (splitRecord text).map fun (fields, rest) => (extendFirst c fields, rest)
  | ',' :: text => (splitRecord text).map fun (fields, rest) => ([] :: fields, rest)
  | ';' :: text => some ([[]], text)
  | c :: text => (splitRecord text).map fun (fields, rest) => (extendFirst c fields, rest)

/-- The text after a record is shorter than the text that holds it. -/
theorem splitRecord_length {text : List Char} {fields : List (List Char)} {rest : List Char}
    (h : splitRecord text = some (fields, rest)) : rest.length < text.length := by
  fun_induction splitRecord text generalizing fields rest with
  | case1 => simp at h
  | case2 => simp at h
  | case3 c text ih =>
      obtain ⟨split, hs, heq⟩ := Option.map_eq_some_iff.mp h
      obtain ⟨-, rfl⟩ := Prod.mk.inj heq
      have := ih hs
      simp only [List.length_cons]
      omega
  | case4 text ih =>
      obtain ⟨split, hs, heq⟩ := Option.map_eq_some_iff.mp h
      obtain ⟨-, rfl⟩ := Prod.mk.inj heq
      have := ih hs
      simp only [List.length_cons]
      omega
  | case5 text =>
      obtain ⟨-, rfl⟩ := Prod.mk.inj (Option.some.inj h)
      simp
  | case6 c text _ _ _ _ ih =>
      obtain ⟨split, hs, heq⟩ := Option.map_eq_some_iff.mp h
      obtain ⟨-, rfl⟩ := Prod.mk.inj heq
      have := ih hs
      simp only [List.length_cons]
      omega

theorem foldr_extendFirst (field first : List Char) (fields : List (List Char)) :
    field.foldr extendFirst (first :: fields) = (field ++ first) :: fields := by
  induction field with
  | nil => rfl
  | cons c field ih => rw [List.foldr_cons, ih]; rfl

/-- Escaped characters are read as they were before. -/
theorem splitRecord_escapeChars_append (field text : List Char) :
    splitRecord (Record.escapeChars field ++ text) =
      (splitRecord text).map fun (fields, rest) => (field.foldr extendFirst fields, rest) := by
  induction field with
  | nil => cases h : splitRecord text <;> simp [Record.escapeChars, h]
  | cons c field ih =>
      have split_cons : splitRecord (Record.escapeChars (c :: field) ++ text) =
          (splitRecord (Record.escapeChars field ++ text)).map fun (fields, rest) =>
            (extendFirst c fields, rest) := by
        cases hc : Record.isMark c with
        | true => simp only [Record.escapeChars, hc, if_true, List.cons_append]; rw [splitRecord]
        | false =>
            simp only [Record.escapeChars, hc, Bool.false_eq_true, if_false, List.cons_append]
            simp only [Record.isMark, Bool.or_eq_false_iff, beq_eq_false_iff_ne] at hc
            rw [splitRecord] <;> simp_all
      rw [split_cons, ih, Option.map_map]
      rfl

/-- A record with its first field apart. -/
theorem Record.toList_write_cons (field : String) (fields : List String) :
    (Record.write (field :: fields)).toList = escapeChars field.toList ++
      (if fields = [] then [';'] else ',' :: (Record.write fields).toList) := by
  cases fields with
  | nil => simp [Record.write, Record.escape]
  | cons next fields => simp [Record.write, Record.escape, String.toList_intercalate]

/-- Reading a record undoes writing it, whatever text follows. A record without fields reads
    back as one empty field. -/
theorem splitRecord_write_append (field : String) (fields : List String) (text : List Char) :
    splitRecord ((Record.write (field :: fields)).toList ++ text) =
      some ((field :: fields).map String.toList, text) := by
  induction fields generalizing field with
  | nil =>
      rw [Record.toList_write_cons, List.append_assoc, splitRecord_escapeChars_append]
      simp [splitRecord, foldr_extendFirst]
  | cons next fields ih =>
      rw [Record.toList_write_cons, List.append_assoc, splitRecord_escapeChars_append]
      simp [splitRecord, foldr_extendFirst, ih]

theorem splitRecord_write_nil_append (text : List Char) :
    splitRecord ((Record.write []).toList ++ text) = some ([[]], text) := rfl


/-- A place in a text of records. -/
structure RecordCursor where
  /-- The text not read yet. -/
  rest : List Char
  /-- How many records have been read, blank ones included. -/
  count : Nat := 0
  deriving Repr, DecidableEq

namespace RecordCursor

/-- The start of a text. -/
def ofString (text : String) : RecordCursor :=
  { rest := text.toList }

/-- The text not read yet. -/
def remaining (cursor : RecordCursor) : String :=
  String.ofList cursor.rest

/-- Reads the next record that is not blank. At the end of the text there is none. A text
    that ends inside a record is a fault, after which nothing is left to read. -/
def next (cursor : RecordCursor) : Option (Except ScriptError Record) × RecordCursor :=
  if Text.allBlank cursor.rest then
    (none, { cursor with rest := [] })
  else
    let number := cursor.count + 1
    match _split : splitRecord cursor.rest with
    | none => (some (.error (.unterminated number)), { rest := [], count := number })
    | some (split, rest) =>
        let fields := split.map fun field => String.ofList (Text.trim field)
        if fields.all String.isEmpty then
          next { rest := rest, count := number }
        else
          (some (.ok { number := number, fields := fields }), { rest := rest, count := number })
termination_by cursor.rest.length
decreasing_by exact splitRecord_length _split

/-- Reading a record takes at least one character off the text. -/
theorem next_rest_length {cursor after : RecordCursor} {result : Except ScriptError Record}
    (h : cursor.next = (some result, after)) : after.rest.length < cursor.rest.length := by
  fun_induction next cursor with
  | case1 => simp at h
  | case2 cursor hb =>
      obtain ⟨-, rfl⟩ := Prod.mk.inj h
      cases hr : cursor.rest with
      | nil => simp [hr, Text.allBlank] at hb
      | cons => simp
  | case3 cursor hb number split rest hs fields hf ih =>
      have := splitRecord_length hs
      have := ih h
      simp only at this
      omega
  | case4 cursor hb number split rest hs fields hf =>
      obtain ⟨-, rfl⟩ := Prod.mk.inj h
      exact splitRecord_length hs

/-- Every record from here to the end of the text, or the first fault. -/
def readAll (cursor : RecordCursor) : Except ScriptError (List Record) :=
  match _step : cursor.next with
  | (none, _) => .ok []
  | (some (.error fault), _) => .error fault
  | (some (.ok record), after) => (readAll after).map (record :: ·)
termination_by cursor.rest.length
decreasing_by exact next_rest_length _step

end RecordCursor

end CommitScript

import Mathlib
import CommitScript.Run.Receipt

/-! # The text of a receipt

Reading the text of a receipt gives its records back, except for what a text cannot hold: fields
lose the blank characters around them, and records without any text are lost. The line break
behind a record stands in front of the next one, where it is blank.
-/

namespace CommitScript

namespace Text

/-- Blank characters in front of a text are trimmed away. -/
theorem trim_append {lead text : List Char} (h : ∀ c ∈ lead, isBlank c) :
    trim (lead ++ text) = trim text := by
  rw [trim, trim, List.dropWhile_append_of_pos h]

theorem dropWhile_eq_self {text : List Char} (h : ∀ c ∈ text, ¬isBlank c) :
    text.dropWhile isBlank = text := by
  cases text with
  | nil => rfl
  | cons c text => exact List.dropWhile_cons_of_neg (h c List.mem_cons_self)

/-- A text without blank characters is left alone. -/
theorem trim_eq_self {text : List Char} (h : ∀ c ∈ text, ¬isBlank c) : trim text = text := by
  rw [trim, dropWhile_eq_self h,
    dropWhile_eq_self (fun c member => h c (List.mem_reverse.mp member)),
    List.reverse_reverse]

/-- A field without the blank characters around it. -/
def trimField (field : String) : String :=
  String.ofList (trim field.toList)

end Text

/-- The records that a text of some records holds. -/
def Receipt.normal (records : List (List String)) : List (List String) :=
  (records.map fun fields => fields.map Text.trimField).filter fun fields =>
    !fields.all String.isEmpty

namespace RecordCursor

theorem next_of_blank {cursor : RecordCursor} (h : Text.allBlank cursor.rest) :
    cursor.next = (none, { cursor with rest := [] }) := by
  rw [next, if_pos h]

/-- A record whose end is found is given, unless it is blank. -/
theorem next_of_split {cursor : RecordCursor} {split : List (List Char)} {rest : List Char}
    (text : ¬Text.allBlank cursor.rest) (h : splitRecord cursor.rest = some (split, rest)) :
    let fields := split.map fun field => String.ofList (Text.trim field)
    let after : RecordCursor := { rest, count := cursor.count + 1 }
    cursor.next =
      if fields.all String.isEmpty then after.next
      else (some (.ok { number := cursor.count + 1, fields }), after) := by
  rw [next, if_neg text]
  split
  · next none =>
    rw [h] at none
    cases none
  · next some =>
    rw [h] at some
    cases some
    rfl

theorem readAll_eq (cursor : RecordCursor) :
    cursor.readAll =
      match cursor.next with
      | (none, _) => .ok []
      | (some (.error fault), _) => .error fault
      | (some (.ok record), after) => after.readAll.map (record :: ·) := by
  rw [readAll]
  split <;> simp_all

end RecordCursor

/-- Blank characters have no meaning of their own among records. -/
theorem Record.isMark_of_isBlank {c : Char} (h : Text.isBlank c) : isMark c = false := by
  by_contra mark
  simp only [isMark, Bool.not_eq_false, Bool.or_eq_true, beq_iff_eq] at mark
  rcases mark with (rfl | rfl) | rfl
  all_goals exact absurd h (by decide)

theorem Record.escapeChars_of_blank {lead : List Char} (h : ∀ c ∈ lead, Text.isBlank c) :
    escapeChars lead = lead := by
  induction lead with
  | nil => rfl
  | cons c lead ih =>
      rw [List.forall_mem_cons] at h
      rw [escapeChars, if_neg (by simp [isMark_of_isBlank h.1]), ih h.2]

/-- Blank characters in front of a record belong to its first field. -/
theorem splitRecord_append_of_blank {lead text rest : List Char} {field : List Char}
    {fields : List (List Char)} (h : ∀ c ∈ lead, Text.isBlank c)
    (split : splitRecord text = some (field :: fields, rest)) :
    splitRecord (lead ++ text) = some ((lead ++ field) :: fields, rest) := by
  have escaped := splitRecord_escapeChars_append lead text
  rw [Record.escapeChars_of_blank h, split] at escaped
  rw [escaped, Option.map_some]
  simp only [foldr_extendFirst]

/-- No record ends among blank characters. -/
theorem splitRecord_of_blank {text : List Char} (h : ∀ c ∈ text, Text.isBlank c) :
    splitRecord text = none := by
  have escaped := splitRecord_escapeChars_append text []
  rwa [Record.escapeChars_of_blank h, List.append_nil] at escaped

/-- A written record is read as its fields, with blank characters in front of it trimmed off the
    first one. A record without fields is read as one empty field. -/
theorem splitRecord_write {lead text : List Char} (fields : List String)
    (h : ∀ c ∈ lead, Text.isBlank c) :
    ∃ split, splitRecord (lead ++ ((Record.write fields).toList ++ text)) = some (split, text) ∧
      split.map (fun field => String.ofList (Text.trim field)) =
        if fields = [] then [""] else fields.map Text.trimField := by
  cases fields with
  | nil =>
      refine ⟨[lead ++ []], splitRecord_append_of_blank h (splitRecord_write_nil_append text), ?_⟩
      rw [List.map_singleton, Text.trim_append h, if_pos rfl]
      rfl
  | cons field fields =>
      refine ⟨_, splitRecord_append_of_blank h (splitRecord_write_append field fields text), ?_⟩
      rw [List.map_cons, Text.trim_append h, if_neg (List.cons_ne_nil _ _), List.map_map]
      rfl

/-- The characters of the text of some records. -/
def textChars (records : List (List String)) : List Char :=
  records.flatMap fun fields => (Record.write fields).toList ++ ['\n']

theorem Receipt.toList_write (receipt : Receipt) :
    receipt.write.toList = textChars receipt.records := by
  rw [write, String.toList_join, List.flatMap_map, textChars]
  exact List.flatMap_congr fun fields _ => String.toList_append

theorem textChars_cons (fields : List String) (records : List (List String)) :
    textChars (fields :: records) = (Record.write fields).toList ++ '\n' :: textChars records := by
  rw [textChars, List.flatMap_cons, List.append_assoc]
  rfl

theorem normal_cons (fields : List String) (records : List (List String)) :
    Receipt.normal (fields :: records) =
      if (fields.map Text.trimField).all String.isEmpty then Receipt.normal records
      else fields.map Text.trimField :: Receipt.normal records := by
  rw [Receipt.normal, List.map_cons, List.filter_cons]
  cases (fields.map Text.trimField).all String.isEmpty <;> rfl

/-- Reading a text of records from anywhere in front of it, past blank characters, gives the
    records in their normal form. -/
theorem readAll_textChars {lead : List Char} (records : List (List String)) (count : Nat)
    (h : ∀ c ∈ lead, Text.isBlank c) :
    ∃ read, RecordCursor.readAll { rest := lead ++ textChars records, count } = .ok read ∧
      read.map Record.fields = Receipt.normal records := by
  induction records generalizing lead count with
  | nil =>
      refine ⟨[], ?_, rfl⟩
      have blank : Text.allBlank (lead ++ textChars []) := by
        rw [Text.allBlank, List.all_eq_true]
        intro c member
        exact h c (by simpa [textChars] using member)
      rw [RecordCursor.readAll_eq, RecordCursor.next_of_blank blank]
  | cons fields records ih =>
      obtain ⟨split, found, trimmed⟩ := splitRecord_write fields h
      rw [← textChars_cons] at found
      have text : ¬Text.allBlank (lead ++ textChars (fields :: records)) := by
        intro blank
        rw [splitRecord_of_blank (List.all_eq_true.mp blank)] at found
        cases found
      have next : RecordCursor.next { rest := lead ++ textChars (fields :: records), count } = _ :=
        RecordCursor.next_of_split text found
      have newline : ∀ c ∈ ['\n'], Text.isBlank c :=
        List.forall_mem_singleton.mpr (Text.isBlank_of_isWhitespace (by decide))
      obtain ⟨read, others, normal⟩ := ih (count + 1) newline
      rw [RecordCursor.readAll_eq, next, trimmed, normal_cons]
      cases blank : (fields.map Text.trimField).all String.isEmpty with
      | true =>
          have skipped : (if fields = [] then [""] else fields.map Text.trimField).all
              String.isEmpty := by
            split
            · rfl
            · exact blank
          rw [if_pos skipped, ← RecordCursor.readAll_eq]
          exact ⟨read, others, normal⟩
      | false =>
          have kept : (if fields = [] then [""] else fields.map Text.trimField) =
              fields.map Text.trimField := by
            split
            · next nothing =>
              rw [nothing] at blank
              cases blank
            · rfl
          rw [kept, blank]
          simp only [Bool.false_eq_true, if_false]
          refine ⟨_ :: read, congrArg (Except.map _) others, ?_⟩
          rw [List.map_cons, normal]

/-- Reading the text of a receipt gives its records in their normal form. -/
theorem Receipt.read_write (receipt : Receipt) :
    read receipt.write = .ok { records := normal receipt.records } := by
  have nothing : ∀ c ∈ ([] : List Char), Text.isBlank c :=
    fun _ member => absurd member List.not_mem_nil
  obtain ⟨records, all, fields⟩ := readAll_textChars receipt.records 0 nothing
  have text : RecordCursor.ofString receipt.write =
      { rest := [] ++ textChars receipt.records, count := 0 } := by
    rw [RecordCursor.ofString, toList_write, List.nil_append]
  rw [read, text, all]
  simp only [fields]

/-- Whether a record could have been read from a text: no field has blank characters around it,
    and some field has text. -/
def Receipt.Tidy (fields : List String) : Prop :=
  (∀ field ∈ fields, Text.trimField field = field) ∧ ∃ field ∈ fields, field ≠ ""

theorem Receipt.all_isEmpty_eq_false {fields : List String} :
    fields.all String.isEmpty = false ↔ ∃ field ∈ fields, field ≠ "" := by
  simp only [List.all_eq_false, String.isEmpty_iff]

/-- Tidy records are in normal form. -/
theorem Receipt.normal_of_tidy {records : List (List String)}
    (h : ∀ fields ∈ records, Tidy fields) : normal records = records := by
  induction records with
  | nil => rfl
  | cons fields records ih =>
      rw [List.forall_mem_cons] at h
      obtain ⟨⟨trimmed, text⟩, others⟩ := h
      have same : fields.map Text.trimField = fields :=
        (List.map_congr_left trimmed).trans (List.map_id fields)
      rw [normal_cons, same, all_isEmpty_eq_false.mpr text, ih others]
      rfl

/-- Whether a field has text, and no blank characters around it. -/
def Receipt.PlainField (field : String) : Prop :=
  field ≠ "" ∧ Text.trimField field = field

/-- Whether a record reads back as it was written: it has fields, all of them plain. -/
def Receipt.Plain (fields : List String) : Prop :=
  fields ≠ [] ∧ ∀ field ∈ fields, PlainField field

theorem Receipt.tidy_of_plain {fields : List String} (h : Plain fields) : Tidy fields := by
  obtain ⟨nonempty, plain⟩ := h
  obtain ⟨field, others, rfl⟩ := List.exists_cons_of_ne_nil nonempty
  exact ⟨fun field member => (plain field member).2,
    field, List.mem_cons_self, (plain field List.mem_cons_self).1⟩

theorem Receipt.normal_of_plain {records : List (List String)}
    (h : ∀ fields ∈ records, Plain fields) : normal records = records :=
  normal_of_tidy fun fields member => tidy_of_plain (h fields member)

namespace Hex

theorem isBlank_digit {n : Nat} (h : n < 16) : ¬Text.isBlank (digit n) :=
  have all : ∀ n : Fin 16, ¬Text.isBlank (digit n) := by decide
  all ⟨n, h⟩

/-- Hexadecimal text has no blank characters. -/
theorem trimField_encode (bytes : Bytes) : Text.trimField (encode bytes) = encode bytes := by
  rw [Text.trimField, Text.trim_eq_self, String.ofList_toList]
  intro c member
  rw [encode, String.toList_ofList, List.mem_flatMap] at member
  obtain ⟨b, -, digits⟩ := member
  have := b.toNat_lt
  rcases List.mem_cons.mp digits with rfl | digits
  · exact isBlank_digit (by omega)
  · rw [List.mem_singleton.mp digits]
    exact isBlank_digit (by omega)

theorem encode_ne_empty {bytes : Bytes} (h : bytes ≠ []) : encode bytes ≠ "" := by
  intro empty
  have length := length_ofString_encode bytes
  have nothing : (Bytes.ofString "").length = 0 := rfl
  rw [empty, nothing] at length
  exact h (List.length_eq_zero_iff.mp (by omega))

theorem plainField_encode {bytes : Bytes} (h : bytes ≠ []) :
    Receipt.PlainField (encode bytes) :=
  ⟨encode_ne_empty h, trimField_encode bytes⟩

end Hex

end CommitScript

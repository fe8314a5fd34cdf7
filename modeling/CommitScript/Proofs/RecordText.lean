import CommitScript.Proofs.ReceiptText
import CommitScript.Proofs.Success

/-! # Records that are read

Whatever a text holds, the records that are read from it are tidy: their fields are trimmed and
some field has text. Tidy records are what a text of records can hold, so they read back as they
were written.
-/

namespace CommitScript

open Success

namespace Text

/-- A trimmed text has nothing left to trim. -/
theorem trim_trim (text : List Char) : trim (trim text) = trim text := by
  have trim_eq (text : List Char) : trim text = (text.dropWhile isBlank).rdropWhile isBlank := rfl
  have front : (trim text).dropWhile isBlank = trim text := by
    rw [List.dropWhile_eq_self_iff]
    intro nonempty
    -- Cutting the end off leaves the first character, which is not blank.
    obtain ⟨rest, whole⟩ : trim text <+: text.dropWhile isBlank := List.rdropWhile_prefix _ _
    have idle := List.dropWhile_eq_self_iff.mp (List.dropWhile_idempotent (p := isBlank) text)
    have first := idle (by rw [← whole, List.length_append]; omega)
    simpa only [← whole, List.getElem_append_left nonempty] using first
  rw [trim_eq (trim text), front, trim_eq, List.rdropWhile_idempotent]

end Text

namespace Receipt

/-- Trimming makes a record tidy unless nothing is left of it. -/
theorem tidy_trimmed {piece : List (List Char)}
    (text : ¬(piece.map fun field => String.ofList (Text.trim field)).all String.isEmpty) :
    Tidy (piece.map fun field => String.ofList (Text.trim field)) := by
  refine ⟨?_, all_isEmpty_eq_false.mp (Bool.eq_false_iff.mpr text)⟩
  intro field member
  obtain ⟨field, -, rfl⟩ := List.mem_map.mp member
  rw [Text.trimField, String.toList_ofList, Text.trim_trim]

end Receipt

namespace RecordCursor

/-- A record that is read is tidy. -/
theorem tidy_of_next {cursor after : RecordCursor} {record : Record}
    (h : cursor.next = (some (.ok record), after)) : Receipt.Tidy record.fields := by
  fun_induction next cursor with
  | case1 => cases h
  | case2 => cases h
  | case3 cursor text number split rest found fields blank ih => exact ih h
  | case4 cursor text number split rest found fields blank =>
      cases h
      exact Receipt.tidy_trimmed blank

/-- Every record of a text is tidy. -/
theorem tidy_of_readAll {cursor : RecordCursor} {records : List Record}
    (h : cursor.readAll = .ok records) : ∀ record ∈ records, Receipt.Tidy record.fields := by
  fun_induction readAll cursor generalizing records with
  | case1 cursor after nothing =>
      cases h
      exact List.forall_mem_nil _
  | case2 cursor after fault refused => cases h
  | case3 cursor record after given ih =>
      obtain ⟨others, read, rfl⟩ := except_map_eq_ok.mp h
      exact List.forall_mem_cons.mpr ⟨tidy_of_next given, ih read⟩

end RecordCursor

end CommitScript

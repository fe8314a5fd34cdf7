import CommitScript.Proofs.RecordText

/-! # The spelling of records

How the fields of a record are spelled in front of its semicolon, what a text looks like in which
no record ends, and how texts are made of both. The first semicolon that is not escaped ends a
record, so there is one way only to cut a text.
-/

namespace CommitScript

namespace Record

/-- How the unescaped fields of a record are spelled in front of its semicolon. -/
inductive Spelled : List Char → List (List Char) → Prop
  | nil : Spelled [] [[]]
  | escaped {c text field fields} : Spelled text (field :: fields) →
      Spelled ('@' :: c :: text) ((c :: field) :: fields)
  | separator {text fields} : Spelled text fields → Spelled (',' :: text) ([] :: fields)
  | plain {c text field fields} : isMark c = false → Spelled text (field :: fields) →
      Spelled (c :: text) ((c :: field) :: fields)

/-- A text in which no record ends: every semicolon is escaped. Nothing need follow the last at
    sign. -/
inductive Unfinished : List Char → Prop
  | spelled {text fields} : Spelled text fields → Unfinished text
  | dangling {text fields} : Spelled text fields → Unfinished (text ++ ['@'])

/-- How a text is made of records with their semicolons, blank ones included. -/
inductive Ended : List Char → List (List (List Char)) → Prop
  | nil : Ended [] []
  | cons {piece fields text pieces} : Spelled piece fields → Ended text pieces →
      Ended (piece ++ ';' :: text) (fields :: pieces)

/-- How a whole text is cut: the records that end in it and what stands behind the last semicolon
    that is not escaped. -/
inductive Cut : List Char → List (List (List Char)) → List Char → Prop
  | intro {front pieces last} : Ended front pieces → Unfinished last →
      Cut (front ++ last) pieces last

theorem Spelled.exists_cons {text : List Char} {fields : List (List Char)}
    (h : Spelled text fields) : ∃ field others, fields = field :: others := by
  cases h <;> exact ⟨_, _, rfl⟩

end Record

open Record

theorem splitRecord_plain {c : Char} (h : isMark c = false) (text : List Char) :
    splitRecord (c :: text) =
      (splitRecord text).map fun (fields, rest) => (extendFirst c fields, rest) := by
  simp only [isMark, Bool.or_eq_false_iff, beq_eq_false_iff_ne] at h
  rw [splitRecord] <;> simp_all

theorem splitRecord_of_spelled {piece : List Char} {fields : List (List Char)}
    (h : Spelled piece fields) (rest : List Char) :
    splitRecord (piece ++ ';' :: rest) = some (fields, rest) := by
  induction h with
  | nil => rfl
  | escaped _ ih =>
      rw [List.cons_append, List.cons_append, splitRecord, ih]
      rfl
  | separator _ ih =>
      rw [List.cons_append, splitRecord, ih]
      rfl
  | plain unmarked _ ih =>
      rw [List.cons_append, splitRecord_plain unmarked, ih]
      rfl

/-- Where no record ends, none ends with a spelled text in front either. -/
theorem splitRecord_append_of_none {piece text : List Char} {fields : List (List Char)}
    (h : Spelled piece fields) (none : splitRecord text = none) :
    splitRecord (piece ++ text) = .none := by
  induction h with
  | nil => exact none
  | escaped _ ih => rw [List.cons_append, List.cons_append, splitRecord, ih, Option.map_none]
  | separator _ ih => rw [List.cons_append, splitRecord, ih, Option.map_none]
  | plain unmarked _ ih =>
      rw [List.cons_append, splitRecord_plain unmarked, ih, Option.map_none]

theorem splitRecord_of_unfinished {text : List Char} (h : Unfinished text) :
    splitRecord text = none := by
  cases h with
  | spelled spelled =>
      have open_end := splitRecord_append_of_none spelled (show splitRecord [] = none from rfl)
      rwa [List.append_nil] at open_end
  | dangling spelled => exact splitRecord_append_of_none spelled rfl

/-- In every text a record ends or none does. -/
theorem unfinished_or_ends (text : List Char) :
    Unfinished text ∨ ∃ piece fields rest, text = piece ++ ';' :: rest ∧ Spelled piece fields := by
  fun_induction splitRecord text with
  | case1 => exact .inl (.spelled .nil)
  | case2 => exact .inl (.dangling .nil)
  | case3 c text ih =>
      rcases ih with (spelled | spelled) | ⟨piece, fields, rest, rfl, spelled⟩
      all_goals obtain ⟨field, others, rfl⟩ := spelled.exists_cons
      · exact .inl (.spelled (.escaped spelled))
      · exact .inl (.dangling (.escaped spelled))
      · exact .inr ⟨'@' :: c :: piece, _, rest, rfl, .escaped spelled⟩
  | case4 text ih =>
      rcases ih with (spelled | spelled) | ⟨piece, fields, rest, rfl, spelled⟩
      · exact .inl (.spelled (.separator spelled))
      · exact .inl (.dangling (.separator spelled))
      · exact .inr ⟨',' :: piece, _, rest, rfl, .separator spelled⟩
  | case5 text => exact .inr ⟨[], _, text, rfl, .nil⟩
  | case6 c text notDangling notEscape notComma notEnd ih =>
      have unmarked : isMark c = false := by cases text <;> simp_all [isMark]
      rcases ih with (spelled | spelled) | ⟨piece, fields, rest, rfl, spelled⟩
      all_goals obtain ⟨field, others, rfl⟩ := spelled.exists_cons
      · exact .inl (.spelled (.plain unmarked spelled))
      · exact .inl (.dangling (.plain unmarked spelled))
      · exact .inr ⟨c :: piece, _, rest, rfl, .plain unmarked spelled⟩

/-- A text splits behind its first semicolon that is not escaped. -/
theorem splitRecord_eq_some {text rest : List Char} {fields : List (List Char)} :
    splitRecord text = some (fields, rest) ↔
      ∃ piece, text = piece ++ ';' :: rest ∧ Spelled piece fields := by
  constructor
  · intro split
    rcases unfinished_or_ends text with unfinished | ⟨piece, fields, rest, rfl, spelled⟩
    · rw [splitRecord_of_unfinished unfinished] at split
      cases split
    · rw [splitRecord_of_spelled spelled] at split
      cases split
      exact ⟨piece, rfl, spelled⟩
  · rintro ⟨piece, rfl, spelled⟩
    exact splitRecord_of_spelled spelled rest

theorem splitRecord_eq_none {text : List Char} : splitRecord text = none ↔ Unfinished text := by
  refine ⟨fun none => ?_, splitRecord_of_unfinished⟩
  rcases unfinished_or_ends text with unfinished | ⟨piece, fields, rest, rfl, spelled⟩
  · exact unfinished
  · rw [splitRecord_of_spelled spelled] at none
    cases none

namespace Record

theorem Ended.append {front text : List Char} {pieces others : List (List (List Char))}
    (h : Ended front pieces) (h' : Ended text others) :
    Ended (front ++ text) (pieces ++ others) := by
  induction h with
  | nil => exact h'
  | cons spelled _ ih =>
      rw [List.append_assoc, List.cons_append, List.cons_append]
      exact .cons spelled ih

theorem Cut.append {front text last : List Char} {pieces others : List (List (List Char))}
    (h : Ended front pieces) (h' : Cut text others last) :
    Cut (front ++ text) (pieces ++ others) last := by
  obtain ⟨ended, unfinished⟩ := h'
  rw [← List.append_assoc]
  exact .intro (h.append ended) unfinished

/-- Every text can be cut. -/
theorem exists_cut (text : List Char) : ∃ pieces last, Cut text pieces last := by
  cases split : splitRecord text with
  | none => exact ⟨[], text, .intro .nil (splitRecord_eq_none.mp split)⟩
  | some parts =>
      have shorter := splitRecord_length split
      obtain ⟨piece, rfl, spelled⟩ := splitRecord_eq_some.mp split
      obtain ⟨pieces, last, cut⟩ := exists_cut parts.2
      refine ⟨parts.1 :: pieces, last, ?_⟩
      rw [List.append_cons]
      exact .append (.cons spelled .nil) cut
termination_by text.length

/-- The first semicolon that is not escaped is found in one place only. -/
theorem Ended.unique {front front' last last' : List Char}
    {pieces pieces' : List (List (List Char))} (h : Ended front pieces) (h' : Ended front' pieces')
    (unfinished : Unfinished last) (unfinished' : Unfinished last')
    (same : front ++ last = front' ++ last') : pieces = pieces' ∧ last = last' := by
  rw [← splitRecord_eq_none] at unfinished unfinished'
  induction h generalizing front' pieces' with
  | nil =>
      cases h' with
      | nil => exact ⟨rfl, same⟩
      | cons spelled _ =>
          rw [List.nil_append, List.append_assoc] at same
          rw [same, List.cons_append, splitRecord_of_spelled spelled] at unfinished
          cases unfinished
  | @cons piece fields text pieces spelled _ ih =>
      have split := splitRecord_of_spelled spelled (text ++ last)
      rw [List.append_assoc, List.cons_append] at same
      cases h' with
      | nil =>
          rw [same, List.nil_append, unfinished'] at split
          cases split
      | cons spelled' ended' =>
          rw [same, List.append_assoc, List.cons_append, splitRecord_of_spelled spelled'] at split
          obtain ⟨rfl, rest⟩ := Prod.mk.inj (Option.some.inj split)
          obtain ⟨rfl, rfl⟩ := ih ended' rest.symm
          exact ⟨rfl, rfl⟩

/-- There is one way only to cut a text. -/
theorem Cut.unique {text last last' : List Char} {pieces pieces' : List (List (List Char))}
    (h : Cut text pieces last) (h' : Cut text pieces' last') : pieces = pieces' ∧ last = last' := by
  obtain ⟨ended, unfinished⟩ := h
  generalize same : _ ++ last = text at h'
  obtain ⟨ended', unfinished'⟩ := h'
  exact ended.unique ended' unfinished unfinished' same

end Record

end CommitScript

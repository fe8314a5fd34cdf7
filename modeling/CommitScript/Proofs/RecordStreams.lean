import CommitScript.Proofs.RecordSpelling

/-! # Reading a text of records to its end

A cursor is asked for record after record. What it gives are the records of the text in their
order, trimmed, without the blank ones but with these counted, and a fault at last if something is
left behind the last semicolon. So texts without a fault can be read one after the other or all at
once.
-/

namespace CommitScript

namespace Record

/-- The records that are given for some ended ones: blank ones are passed over but counted. -/
def numbered (count : Nat) : List (List (List Char)) → List Record
  | [] => []
  | piece :: pieces =>
      let fields := piece.map fun field => String.ofList (Text.trim field)
      if fields.all String.isEmpty then numbered (count + 1) pieces
      else { number := count + 1, fields } :: numbered (count + 1) pieces

/-- Which record ends right in front of the rest of a text, if some records were counted before
    the text. -/
inductive EndsBefore (count : Nat) : List Char → Record → List Char → Prop
  | intro {front piece rest fields pieces} : Ended front pieces → Spelled piece fields →
      EndsBefore count (front ++ (piece ++ ';' :: rest))
        { number := count + pieces.length + 1
          fields := fields.map fun field => String.ofList (Text.trim field) } rest

theorem endsBefore_of_split {text rest : List Char} {piece : List (List Char)}
    (h : splitRecord text = some (piece, rest)) (count : Nat) :
    EndsBefore count text
      { number := count + 1
        fields := piece.map fun field => String.ofList (Text.trim field) } rest := by
  obtain ⟨front, rfl, spelled⟩ := splitRecord_eq_some.mp h
  exact .intro .nil spelled

theorem EndsBefore.trans {count : Nat} {text between rest : List Char} {first record : Record}
    (h : EndsBefore count text first between) (h' : EndsBefore first.number between record rest) :
    EndsBefore count text record rest := by
  obtain @⟨front, piece, _, fields, pieces, ended, spelled⟩ := h
  obtain @⟨front', piece', _, fields', pieces', ended', spelled'⟩ := h'
  have whole : EndsBefore count (front ++ (piece ++ ';' :: front') ++ (piece' ++ ';' :: rest))
      { number := count + (pieces ++ fields :: pieces').length + 1
        fields := fields'.map fun field => String.ofList (Text.trim field) } rest :=
    .intro (ended.append (.cons spelled ended')) spelled'
  have number : count + (pieces ++ fields :: pieces').length + 1 =
      count + pieces.length + 1 + pieces'.length + 1 := by
    rw [List.length_append, List.length_cons]
    omega
  rw [number] at whole
  simpa only [List.append_assoc, List.cons_append] using whole

/-- The records in front of a record that ends were counted. -/
theorem EndsBefore.cut {count : Nat} {text rest last : List Char} {record : Record}
    {pieces : List (List (List Char))} (h : EndsBefore count text record rest)
    (h' : Cut rest pieces last) :
    ∃ before, Cut text (before ++ pieces) last ∧ record.number = count + before.length := by
  obtain @⟨front, piece, _, fields, before, ended, spelled⟩ := h
  refine ⟨before ++ [fields], ?_, by rw [List.length_append]; rfl⟩
  rw [List.append_cons, ← List.append_assoc]
  exact .append (ended.append (.cons spelled .nil)) h'

theorem numbered_cons (count : Nat) (piece : List (List Char)) (pieces : List (List (List Char))) :
    numbered count (piece :: pieces) = numbered count [piece] ++ numbered (count + 1) pieces := by
  simp only [numbered]
  split <;> rfl

/-- A record that is given is tidy. -/
theorem tidy_of_mem_numbered {count : Nat} {pieces : List (List (List Char))} {record : Record}
    (h : record ∈ numbered count pieces) : Receipt.Tidy record.fields := by
  induction pieces generalizing count with
  | nil => cases h
  | cons piece pieces ih =>
      rw [numbered] at h
      split at h
      · exact ih h
      · next text =>
        rcases List.mem_cons.mp h with rfl | h
        · exact Receipt.tidy_trimmed text
        · exact ih h

/-- The same record some records further on. -/
def shift (count : Nat) (record : Record) : Record :=
  { record with number := record.number + count }

theorem numbered_shift (count m : Nat) (pieces : List (List (List Char))) :
    numbered (count + m) pieces = (numbered count pieces).map (shift m) := by
  induction pieces generalizing count with
  | nil => rfl
  | cons piece pieces ih =>
      simp only [numbered, Nat.add_right_comm count m 1, ih]
      split <;> rfl

end Record

/-- The same fault some records further on. -/
def ScriptError.shift (count : Nat) : ScriptError → ScriptError
  | unterminated record => unterminated (record + count)
  | unknownOpcode record name => unknownOpcode (record + count) name
  | invalidOperands record opcode fault => invalidOperands (record + count) opcode fault
  | invalidWeight literal => invalidWeight literal
  | invalidLiteral record literal => invalidLiteral (record + count) literal

namespace RecordCursor

/-- What is given from here on, until there is nothing more to give. -/
def results (cursor : RecordCursor) : List (Except ScriptError Record) :=
  match _step : cursor.next with
  | (none, _) => []
  | (some result, after) => result :: results after
termination_by cursor.rest.length
decreasing_by exact next_rest_length _step

/-- The place after a number of calls. -/
def advance (cursor : RecordCursor) : Nat → RecordCursor
  | 0 => cursor
  | calls + 1 => cursor.next.2.advance calls

/-- Reads the next record, passing over no more than a number of blank ones less one. -/
def nextWithin (cursor : RecordCursor) :
    Nat → Option (Option (Except ScriptError Record) × RecordCursor)
  | 0 => none
  | passes + 1 =>
      if Text.allBlank cursor.rest then
        some (none, { cursor with rest := [] })
      else
        let number := cursor.count + 1
        match splitRecord cursor.rest with
        | none => some (some (.error (.unterminated number)), { rest := [], count := number })
        | some (split, rest) =>
            let fields := split.map fun field => String.ofList (Text.trim field)
            if fields.all String.isEmpty then
              nextWithin { rest := rest, count := number } passes
            else
              some (some (.ok { number := number, fields := fields }),
                { rest := rest, count := number })

/-- A text in which no record ends is a fault unless it is blank. -/
theorem next_of_none {cursor : RecordCursor} (text : ¬Text.allBlank cursor.rest)
    (h : splitRecord cursor.rest = none) :
    cursor.next =
      (some (.error (.unterminated (cursor.count + 1))),
        { rest := [], count := cursor.count + 1 }) := by
  rw [next, if_neg text]
  split
  · rfl
  · next some =>
    rw [h] at some
    cases some

theorem not_allBlank_of_split {text rest : List Char} {split : List (List Char)}
    (h : splitRecord text = some (split, rest)) : ¬Text.allBlank text := by
  intro blank
  rw [splitRecord_of_blank (List.all_eq_true.mp blank)] at h
  cases h

/-- The loop of a cursor comes to an end if it may make a pass for each character and one more. -/
theorem nextWithin_eq {cursor : RecordCursor} {passes : Nat}
    (enough : cursor.rest.length < passes) : cursor.nextWithin passes = some cursor.next := by
  induction passes generalizing cursor with
  | zero => cases enough
  | succ passes ih =>
      rw [nextWithin]
      by_cases blank : Text.allBlank cursor.rest
      · rw [if_pos blank, next_of_blank blank]
      · rw [if_neg blank]
        cases found : splitRecord cursor.rest with
        | none => rw [next_of_none blank found]
        | some parts =>
            obtain ⟨piece, rest⟩ := parts
            have shorter := splitRecord_length found
            rw [next_of_split blank found]
            dsimp only
            split
            · exact ih (Nat.lt_of_lt_of_le shorter (Nat.le_of_lt_succ enough))
            · rfl

section Results

variable {cursor after : RecordCursor}

theorem results_of_none (h : cursor.next = (none, after)) : cursor.results = [] := by
  rw [results]
  split <;> simp_all

theorem results_of_some {result : Except ScriptError Record}
    (h : cursor.next = (some result, after)) : cursor.results = result :: after.results := by
  rw [results]
  split <;> simp_all

/-- What the cursor gives depends on nothing but its next record and the place after it. -/
theorem results_congr {cursor' : RecordCursor} (same : cursor.next = cursor'.next) :
    cursor.results = cursor'.results := by
  cases step : cursor.next with
  | mk result after =>
      cases result with
      | none => rw [results_of_none step, results_of_none (same.symm.trans step)]
      | some result => rw [results_of_some step, results_of_some (same.symm.trans step)]

theorem next_nil (count : Nat) : next { rest := [], count } = (none, { rest := [], count }) :=
  next_of_blank rfl

/-- Nothing is given any more once nothing is left. -/
theorem results_nil {cursor : RecordCursor} (h : cursor.rest = []) : cursor.results = [] := by
  obtain ⟨rest, count⟩ := cursor
  cases h
  exact results_of_none (next_nil count)

/-- Without a record nothing is left. -/
theorem rest_of_next {result : Option (Except ScriptError Record)}
    (h : cursor.next = (result, after)) (none : ∀ record, result ≠ some (.ok record)) :
    after.rest = [] := by
  fun_induction next cursor with
  | case1 => cases h; rfl
  | case2 => cases h; rfl
  | case3 cursor blank number split rest found fields empty ih => exact ih h
  | case4 =>
      cases h
      exact absurd rfl (none _)

/-- A call gives what stands at its place among the results, and nothing when these are over. -/
theorem next_advance (cursor : RecordCursor) (calls : Nat) :
    (cursor.advance calls).next.1 = cursor.results[calls]? := by
  induction calls generalizing cursor with
  | zero =>
      rw [advance]
      cases step : cursor.next with
      | mk result after =>
          cases result with
          | none => rw [results_of_none step]; rfl
          | some result => rw [results_of_some step]; rfl
  | succ calls ih =>
      rw [advance, ih]
      cases step : cursor.next with
      | mk result after =>
          cases result with
          | none =>
              have nothing := results_nil (rest_of_next step (by simp))
              rw [nothing, results_of_none step]
              rfl
          | some result => rw [results_of_some step]; rfl

end Results

/-! ## What the results are -/

/-- Blank characters in front of a text make no difference. -/
theorem next_of_lead {lead : List Char} (h : ∀ c ∈ lead, Text.isBlank c) (text : List Char)
    (count : Nat) : next { rest := lead ++ text, count } = next { rest := text, count } := by
  have blank_iff : Text.allBlank (lead ++ text) ↔ Text.allBlank text := by
    simp only [Text.allBlank, List.all_append, List.all_eq_true.mpr h, Bool.true_and]
  by_cases blank : Text.allBlank text
  · have given : next { rest := text, count } = _ := next_of_blank blank
    rw [given]
    exact next_of_blank (blank_iff.mpr blank)
  · have text' : ¬Text.allBlank (lead ++ text) := blank_iff.not.mpr blank
    cases found : splitRecord text with
    | none =>
        have given : next { rest := text, count } = _ := next_of_none blank found
        have escaped := splitRecord_escapeChars_append lead text
        rw [Record.escapeChars_of_blank h, found, Option.map_none] at escaped
        rw [given]
        exact next_of_none text' escaped
    | some parts =>
        obtain ⟨fields, rest⟩ := parts
        have given : next { rest := text, count } = _ := next_of_split blank found
        obtain ⟨piece, -, spelled⟩ := splitRecord_eq_some.mp found
        obtain ⟨field, others, rfl⟩ := spelled.exists_cons
        have given' : next { rest := lead ++ text, count } = _ :=
          next_of_split text' (splitRecord_append_of_blank h found)
        rw [given, given']
        simp only [List.map_cons, Text.trim_append h]

variable {front piece : List Char} {fields : List (List Char)} {pieces : List (List (List Char))}

/-- A record with its semicolon is given unless it is blank. -/
theorem results_of_spelled (h : Record.Spelled piece fields) (rest : List Char) (count : Nat) :
    results { rest := piece ++ ';' :: rest, count } =
      (Record.numbered count [fields]).map .ok ++ results { rest, count := count + 1 } := by
  have found := splitRecord_of_spelled h rest
  have given : next { rest := piece ++ ';' :: rest, count } = _ :=
    next_of_split (not_allBlank_of_split found) found
  rw [Record.numbered, Record.numbered]
  split
  · next blank =>
    rw [if_pos blank] at given
    rw [results_congr given]
    rfl
  · next text =>
    rw [if_neg text] at given
    rw [results_of_some given]
    rfl

theorem results_of_ended (h : Record.Ended front pieces) (rest : List Char) (count : Nat) :
    results { rest := front ++ rest, count } =
      (Record.numbered count pieces).map .ok ++
        results { rest, count := count + pieces.length } := by
  induction h generalizing count with
  | nil => rfl
  | @cons _ _ _ pieces spelled _ ih =>
      rw [List.append_assoc, List.cons_append, results_of_spelled spelled, ih,
        Record.numbered_cons count _ pieces, List.map_append, List.append_assoc, List.length_cons,
        Nat.add_assoc, Nat.add_comm 1]

/-- What stands behind the last semicolon is a fault unless it is blank. -/
theorem results_of_unfinished {last : List Char} (h : Record.Unfinished last) (count : Nat) :
    results { rest := last, count } =
      if Text.allBlank last then [] else [.error (.unterminated (count + 1))] := by
  split
  · next blank =>
    have given : next { rest := last, count } = _ := next_of_blank blank
    exact results_of_none given
  · next text =>
    have given : next { rest := last, count } = _ := next_of_none text (splitRecord_eq_none.mpr h)
    rw [results_of_some given, results_nil rfl]

/-- The same result some records further on. -/
def shiftResult (count : Nat) (result : Except ScriptError Record) : Except ScriptError Record :=
  (result.map (Record.shift count)).mapError (ScriptError.shift count)

/-- A reader that has counted some records before numbers all results from there. -/
theorem results_shift (text : List Char) (count m : Nat) :
    results { rest := text, count := count + m } =
      (results { rest := text, count }).map (shiftResult m) := by
  obtain ⟨pieces, last, ended, unfinished⟩ := Record.exists_cut text
  rw [results_of_ended ended, results_of_ended ended, results_of_unfinished unfinished,
    results_of_unfinished unfinished, Record.numbered_shift, List.map_append, List.map_map,
    List.map_map, Nat.add_right_comm count m, apply_ite (List.map (shiftResult m)),
    Nat.add_right_comm _ m 1]
  rfl

/-! ## Where a call leaves the cursor -/

theorem advance_succ (cursor : RecordCursor) (calls : Nat) :
    cursor.advance (calls + 1) = (cursor.advance calls).next.2 := by
  induction calls generalizing cursor with
  | zero => rfl
  | succ calls ih => exact ih cursor.next.2

/-- A call that gives a record stops behind its semicolon. -/
theorem next_eq_ok {cursor : RecordCursor} {record : Record}
    (h : cursor.next.1 = some (.ok record)) :
    Record.EndsBefore cursor.count cursor.rest record cursor.next.2.rest ∧
      cursor.next.2.count = record.number := by
  fun_induction next cursor with
  | case1 => cases h
  | case2 => cases h
  | case3 cursor blank number piece rest found fields empty ih =>
      obtain ⟨ends, count⟩ := ih h
      exact ⟨(Record.endsBefore_of_split found cursor.count).trans ends, count⟩
  | case4 cursor blank number piece rest found fields filled =>
      cases h
      exact ⟨Record.endsBefore_of_split found cursor.count, rfl⟩

/-- A call that gives a record, however many there were before, stops behind its semicolon. -/
theorem advance_eq_ok {cursor : RecordCursor} {calls : Nat} {record : Record}
    (h : (cursor.advance calls).next.1 = some (.ok record)) :
    Record.EndsBefore cursor.count cursor.rest record (cursor.advance (calls + 1)).rest ∧
      (cursor.advance (calls + 1)).count = record.number := by
  induction calls generalizing cursor with
  | zero => exact next_eq_ok h
  | succ calls ih =>
      have goes_on : ∃ first, cursor.next.1 = some (.ok first) := by
        by_contra none
        have nothing := results_nil (rest_of_next rfl fun first given => none ⟨first, given⟩)
        rw [advance, next_advance, nothing] at h
        cases h
      obtain ⟨first, given⟩ := goes_on
      obtain ⟨ends, count⟩ := next_eq_ok given
      obtain ⟨ends', count'⟩ := ih h
      rw [count] at ends'
      exact ⟨ends.trans ends', count'⟩

/-- Blank records at the end are counted too. -/
theorem count_of_next_none {cursor after : RecordCursor} {pieces : List (List (List Char))}
    {last : List Char} (h : cursor.next = (none, after))
    (cut : Record.Cut cursor.rest pieces last) : after.count = cursor.count + pieces.length := by
  fun_induction next cursor generalizing pieces last with
  | case1 cursor blank =>
      cases h
      have none := splitRecord_of_blank (List.all_eq_true.mp blank)
      have whole : Record.Cut cursor.rest [] cursor.rest :=
        .intro .nil (splitRecord_eq_none.mp none)
      obtain ⟨rfl, -⟩ := cut.unique whole
      rfl
  | case2 => cases h
  | case3 cursor blank number piece rest found fields =>
      next empty ih =>
      obtain ⟨others, last', cut'⟩ := Record.exists_cut rest
      obtain ⟨before, all, passed⟩ := (Record.endsBefore_of_split found cursor.count).cut cut'
      obtain ⟨rfl, -⟩ := cut.unique all
      rw [ih h cut', List.length_append, ← Nat.add_assoc, ← passed]
  | case4 => cases h

/-- A reader that came to the end without a fault has counted every record. -/
theorem count_of_results {cursor : RecordCursor} {records : List Record}
    {pieces : List (List (List Char))} {last : List Char}
    (h : cursor.results = records.map .ok) (cut : Record.Cut cursor.rest pieces last) :
    (cursor.advance (records.length + 1)).count = cursor.count + pieces.length := by
  induction records generalizing cursor pieces last with
  | nil =>
      have none : cursor.next.1 = none := by
        rw [← advance.eq_1 cursor, next_advance, h]
        rfl
      exact count_of_next_none (Prod.ext none rfl) cut
  | cons record records ih =>
      have given : cursor.next.1 = some (.ok record) := by
        rw [← advance.eq_1 cursor, next_advance, h]
        rfl
      obtain ⟨ends, count⟩ := next_eq_ok given
      obtain ⟨others, last', cut'⟩ := Record.exists_cut cursor.next.2.rest
      obtain ⟨before, all, passed⟩ := ends.cut cut'
      obtain ⟨rfl, -⟩ := cut.unique all
      rw [results_of_some (Prod.ext given rfl)] at h
      rw [List.length_cons, advance, ih (List.cons.inj h).2 cut', count, passed,
        List.length_append, Nat.add_assoc]

@[simp]
theorem toList_remaining (cursor : RecordCursor) :
    cursor.remaining.toList = cursor.rest :=
  String.toList_ofList

/-- A call that gives no record takes the rest of the text, and nothing is given after it. -/
theorem advance_of_not_ok {cursor : RecordCursor} {calls : Nat}
    (h : ∀ record, (cursor.advance calls).next.1 ≠ some (.ok record)) :
    (cursor.advance (calls + 1)).rest = [] ∧
      ∀ later > calls, (cursor.advance later).next.1 = none := by
  have spent : (cursor.advance (calls + 1)).rest = [] := by
    rw [advance_succ]
    exact rest_of_next rfl h
  refine ⟨spent, fun later passed => ?_⟩
  have behind : cursor.results[calls + 1]? = none := by
    rw [← next_advance, ← advance.eq_1 (cursor.advance (calls + 1)), next_advance,
      results_nil spent]
    rfl
  rw [next_advance, List.getElem?_eq_none_iff]
  exact (List.getElem?_eq_none_iff.mp behind).trans passed

/-- What a whole text gives. -/
theorem results_of_cut {text last : List Char} {pieces : List (List (List Char))}
    (h : Record.Cut text pieces last) (count : Nat) :
    results { rest := text, count } = (Record.numbered count pieces).map .ok ++
      if Text.allBlank last then [] else [.error (.unterminated (count + pieces.length + 1))] := by
  obtain ⟨ended, unfinished⟩ := h
  rw [results_of_ended ended, results_of_unfinished unfinished]

/-- What is given for two texts in a row, if the first gives no fault. -/
theorem results_append {text last : List Char} {pieces : List (List (List Char))}
    {records : List Record} (cut : Record.Cut text pieces last) {count : Nat}
    (h : results { rest := text, count } = records.map .ok) (other : List Char) :
    results { rest := text ++ other, count } =
      records.map .ok ++ results { rest := other, count := count + pieces.length } := by
  have whole := results_of_cut cut count
  rw [h] at whole
  obtain ⟨ended, -⟩ := cut
  split at whole
  · next blank =>
    rw [List.append_nil] at whole
    rw [List.append_assoc, results_of_ended ended, ← whole,
      results_congr (next_of_lead (List.all_eq_true.mp blank) _ _)]
  · have fault :
        Except.error (ScriptError.unterminated (count + pieces.length + 1)) ∈ records.map .ok := by
      rw [whole]
      exact List.mem_append_right _ List.mem_cons_self
    obtain ⟨record, -, same⟩ := List.mem_map.mp fault
    cases same

/-- A text is read record after record, whatever is written in it. It is cut in one way only, at
    the semicolons that are not escaped; each call gives the next record that is not blank, with its
    place among all, and stops behind its semicolon. What is left behind the last semicolon is a
    fault at last, unless it is blank. Where there is none, a text behind is read as if it stood
    alone, with its records counted on. -/
theorem reading_is_compositional (text : String) :
    (∀ (cursor : RecordCursor) (passes : Nat), cursor.rest.length < passes →
      cursor.nextWithin passes = some cursor.next) ∧
    ∃ pieces last, Record.Cut text.toList pieces last ∧
      (∀ pieces' last', Record.Cut text.toList pieces' last' → pieces' = pieces ∧ last' = last) ∧
      let start := ofString text
      let records := Record.numbered 0 pieces
      start.results = records.map .ok ++
        (if Text.allBlank last then [] else [.error (.unterminated (pieces.length + 1))]) ∧
      (∀ record ∈ records, Receipt.Tidy record.fields) ∧
      (∀ calls, (start.advance calls).next.1 = start.results[calls]?) ∧
      (∀ calls record, (start.advance calls).next.1 = some (.ok record) →
        Record.EndsBefore 0 text.toList record (start.advance (calls + 1)).remaining.toList) ∧
      (∀ calls, (∀ record, (start.advance calls).next.1 ≠ some (.ok record)) →
        (start.advance (calls + 1)).remaining = "" ∧
          ∀ later > calls, (start.advance later).next.1 = none) ∧
      (start.results = records.map .ok →
        (start.advance (records.length + 1)).count = pieces.length ∧
          ∀ other, (ofString (text ++ other)).results =
            records.map .ok ++ (ofString other).results.map (shiftResult pieces.length)) := by
  refine ⟨fun cursor passes enough => nextWithin_eq enough, ?_⟩
  obtain ⟨pieces, last, cut⟩ := Record.exists_cut text.toList
  refine ⟨pieces, last, cut, fun _ _ cut' => cut'.unique cut, ?_⟩
  intro start records
  have whole : start.results = _ := results_of_cut cut 0
  rw [Nat.zero_add] at whole
  refine ⟨whole, fun _ member => Record.tidy_of_mem_numbered member, next_advance start,
    fun calls record given => ?_, fun calls other => ?_, fun sound => ?_⟩
  · rw [toList_remaining]
    exact (advance_eq_ok given).1
  · obtain ⟨spent, later⟩ := advance_of_not_ok other
    exact ⟨by rw [remaining, spent], later⟩
  · refine ⟨?_, fun other => ?_⟩
    · rw [count_of_results sound cut]
      exact Nat.zero_add _
    · have both := results_append cut sound other.toList
      rw [results_shift, ← String.toList_append] at both
      exact both

/-- The blank record is counted, and the blank behind the last semicolon is trimmed off the field
    behind. -/
theorem reading_is_compositional_log :
    (ofString ("log;; " ++ " @;")).results =
      [.ok { number := 1, fields := ["log"] }, .error (.unterminated 3)] := by
  obtain ⟨-, pieces, last, -, unique, whole, -, -, -, -, both⟩ := reading_is_compositional "log;; "
  have log : Record.Spelled ['l', 'o', 'g'] [['l', 'o', 'g']] :=
    .plain rfl (.plain rfl (.plain rfl .nil))
  have cut : Record.Cut (['l', 'o', 'g'] ++ ';' :: ([] ++ ';' :: []) ++ [' '])
      [[['l', 'o', 'g']], [[]]] [' '] :=
    .intro (.cons log (.cons .nil .nil)) (.spelled (.plain rfl .nil))
  obtain ⟨rfl, rfl⟩ := unique _ _ cut
  have open_end : Record.Unfinished " @;".toList := .spelled (.plain rfl (.escaped .nil))
  have fault : (ofString " @;").results = [.error (.unterminated 1)] :=
    results_of_unfinished open_end 0
  rw [(both whole).2, fault]
  rfl

end RecordCursor

end CommitScript

import CommitScript.Run.Error

/-! # Tables of names

What names stand for, in the order of the names. A name has one meaning at a time; binding it
again replaces the meaning. The main statements say what is found after a name is bound.
-/

namespace CommitScript

variable {Value : Type}

/-- Names with their values, in rising order of the names. -/
structure Table (Value : Type) where
  entries : List (String × Value)
  sorted : entries.Pairwise fun a b => a.1 < b.1

namespace Table

def empty : Table Value :=
  ⟨[], .nil⟩

/-- Puts a name at its place in a list of entries, replacing the entry of that name. -/
def insertEntry (name : String) (value : Value) : List (String × Value) → List (String × Value)
  | [] => [(name, value)]
  | entry :: rest =>
      if name < entry.1 then (name, value) :: entry :: rest
      else if name = entry.1 then (name, value) :: rest
      else entry :: insertEntry name value rest

theorem mem_insertEntry {name : String} {value : Value} {entries : List (String × Value)}
    {entry : String × Value} (h : entry ∈ insertEntry name value entries) :
    entry = (name, value) ∨ entry ∈ entries := by
  induction entries with
  | nil => simpa [insertEntry] using h
  | cons head rest ih =>
      rw [insertEntry] at h
      split at h
      · simpa using h
      · split at h
        · rcases List.mem_cons.mp h with rfl | h
          · exact .inl rfl
          · exact .inr (List.mem_cons_of_mem _ h)
        · rcases List.mem_cons.mp h with rfl | h
          · exact .inr List.mem_cons_self
          · exact (ih h).imp id (List.mem_cons_of_mem _)

theorem sorted_insertEntry (name : String) (value : Value) {entries : List (String × Value)}
    (h : entries.Pairwise fun a b => a.1 < b.1) :
    (insertEntry name value entries).Pairwise fun a b => a.1 < b.1 := by
  induction entries with
  | nil => simp [insertEntry]
  | cons head rest ih =>
      obtain ⟨first, others⟩ := List.pairwise_cons.mp h
      rw [insertEntry]
      split
      · next below =>
        refine List.pairwise_cons.mpr ⟨fun entry member => ?_, h⟩
        rcases List.mem_cons.mp member with rfl | member
        · exact below
        · exact String.lt_trans below (first entry member)
      · next notBelow =>
        split
        · next same =>
          exact List.pairwise_cons.mpr ⟨fun entry member => same ▸ first entry member, others⟩
        · next other =>
          refine List.pairwise_cons.mpr ⟨fun entry member => ?_, ih others⟩
          rcases mem_insertEntry member with rfl | member
          · exact Std.lt_of_le_of_ne (Std.not_lt.mp notBelow) (Ne.symm other)
          · exact first entry member

/-- Binds a name, replacing any earlier meaning. -/
def insert (table : Table Value) (name : String) (value : Value) : Table Value :=
  ⟨insertEntry name value table.entries, sorted_insertEntry name value table.sorted⟩

/-- What a name stands for. -/
def get? (table : Table Value) (name : String) : Option Value :=
  table.entries.lookup name

/-- What a name stands for; names that are not bound are faults. -/
def find (table : Table Value) (name : String) : Except RunError Value :=
  match table.get? name with
  | some value => .ok value
  | none => .error (.undefined name)

def size (table : Table Value) : Nat :=
  table.entries.length

/-- The table of some entries, in which the last entry of a name counts. -/
def ofList (entries : List (String × Value)) : Table Value :=
  entries.foldl (fun table (name, value) => table.insert name value) empty

theorem lookup_entry (name other : String) (value : Value) (rest : List (String × Value)) :
    ((name, value) :: rest).lookup other =
      if other = name then some value else rest.lookup other := by
  by_cases h : other = name
  · rw [h, List.lookup_cons_self, if_pos rfl]
  · rw [if_neg h, List.lookup_cons, beq_false_of_ne h]

theorem lookup_insertEntry (name other : String) (value : Value)
    (entries : List (String × Value)) :
    (insertEntry name value entries).lookup other =
      if other = name then some value else entries.lookup other := by
  induction entries with
  | nil => rw [insertEntry, lookup_entry]
  | cons head rest ih =>
      obtain ⟨first, meaning⟩ := head
      rw [insertEntry]
      split
      · rw [lookup_entry]
      · split
        · next same =>
          simp only at same
          subst same
          rw [lookup_entry, lookup_entry]
          split <;> rfl
        · next different =>
          simp only at different
          rw [lookup_entry, lookup_entry, ih]
          by_cases h : other = first
          · simp [h, Ne.symm different]
          · simp [h]

/-- After a name is bound it has its new meaning, and every other name keeps its own. -/
theorem get?_insert (table : Table Value) (name other : String) (value : Value) :
    (table.insert name value).get? other = if other = name then some value else table.get? other :=
  lookup_insertEntry name other value table.entries

end Table

end CommitScript

import CommitScript.Run.Table

/-! # The laws of tables

Looking a name up in a table whose values have been changed one by one, and binding a name in
such a table. Two sides that keep different values under the same names are compared through
these laws.
-/

namespace CommitScript.Table

variable {Value Other : Type}

/-- Tables with the same entries are the same. -/
@[ext]
theorem ext {table table' : Table Value} (h : table.entries = table'.entries) :
    table = table' := by
  cases table
  cases table'
  cases h
  rfl

theorem find_eq_ok {table : Table Value} {name : String} {value : Value} :
    table.find name = .ok value ↔ table.get? name = some value := by
  unfold find
  cases table.get? name <;> simp

theorem find_eq_error {table : Table Value} {name : String} {fault : RunError} :
    table.find name = .error fault ↔ table.get? name = none ∧ fault = .undefined name := by
  unfold find
  cases table.get? name <;> simp [eq_comm]

@[simp]
theorem get?_empty (name : String) : (empty : Table Value).get? name = none :=
  rfl

/-- Whether every name that is bound stands for a value of some kind. -/
def All (P : Value → Prop) (table : Table Value) : Prop :=
  ∀ name value, table.get? name = some value → P value

variable {P : Value → Prop}

theorem all_empty : (empty : Table Value).All P := by
  intro name value found
  cases found

theorem all_insert {table : Table Value} {name : String} {value : Value} (h : table.All P)
    (bound : P value) : (table.insert name value).All P := by
  intro other found lookup
  rw [get?_insert] at lookup
  split at lookup
  · cases lookup
    exact bound
  · exact h other found lookup

/-- The table in which every value has been changed alike. -/
def map (f : Value → Other) (table : Table Value) : Table Other where
  entries := table.entries.map fun entry => (entry.1, f entry.2)
  sorted := List.pairwise_map.mpr table.sorted

@[simp]
theorem map_empty (f : Value → Other) : (empty : Table Value).map f = empty :=
  rfl

/-- Changing the values does not change the names. -/
theorem names_map (f : Value → Other) (table : Table Value) :
    (table.map f).entries.map Prod.fst = table.entries.map Prod.fst := by
  simp [map]

theorem insertEntry_map (f : Value → Other) (name : String) (value : Value)
    (entries : List (String × Value)) :
    insertEntry name (f value) (entries.map fun entry => (entry.1, f entry.2)) =
      (insertEntry name value entries).map fun entry => (entry.1, f entry.2) := by
  induction entries with
  | nil => rfl
  | cons head rest ih =>
      simp only [List.map_cons, insertEntry, ih]
      split
      · rfl
      · split
        · rfl
        · rfl

/-- It is all the same whether a value is changed before or after it is bound. -/
theorem map_insert (f : Value → Other) (table : Table Value) (name : String) (value : Value) :
    (table.insert name value).map f = (table.map f).insert name (f value) := by
  ext1
  exact (insertEntry_map f name value table.entries).symm

theorem lookup_map (f : Value → Other) (name : String) (entries : List (String × Value)) :
    (entries.map fun entry => (entry.1, f entry.2)).lookup name =
      (entries.lookup name).map f := by
  induction entries with
  | nil => rfl
  | cons head rest ih =>
      obtain ⟨first, value⟩ := head
      rw [List.map_cons, lookup_entry, lookup_entry, ih]
      split <;> rfl

theorem get?_map (f : Value → Other) (table : Table Value) (name : String) :
    (table.map f).get? name = (table.get? name).map f :=
  lookup_map f name table.entries

end CommitScript.Table

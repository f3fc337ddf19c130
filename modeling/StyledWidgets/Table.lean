/-
Module: StyledWidgets.Table
Purpose: Finite tables that keep their entries in the order in which keys first arrived.
  Every store of the library (pending repaints, cached rules, installed sheets) is one.
Main exports: Table, Table.find?, Table.insert, Table.erase, Table.find?_insert,
  Table.find?_erase, Table.find?_modify, Table.mem_keys_iff
-/

namespace StyledWidgets

/-- A finite table from keys to values. A key that is inserted again keeps its place. -/
structure Table (κ α : Type) where
  entries : List (κ × α)
  deriving Repr, DecidableEq, Inhabited

namespace Table

variable {κ α : Type}

/-- The table without entries. -/
def empty : Table κ α := ⟨[]⟩

instance : EmptyCollection (Table κ α) := ⟨empty⟩

/-- The keys, oldest first. -/
def keys (table : Table κ α) : List κ := table.entries.map (·.1)

/-- The values, in the order of their keys. -/
def values (table : Table κ α) : List α := table.entries.map (·.2)

/-- The number of keys. -/
def size (table : Table κ α) : Nat := table.entries.length

/-- No key is present. -/
def isEmpty (table : Table κ α) : Bool := table.entries.isEmpty

/-- Keeps the entries whose key satisfies `keep`. -/
def filterKeys (keep : κ → Bool) (table : Table κ α) : Table κ α :=
  ⟨table.entries.filter fun entry => keep entry.1⟩

section Lookup

variable [DecidableEq κ]

/-- Look a key up in a list of entries; the first entry with the key answers. -/
def findIn (key : κ) : List (κ × α) → Option α
  | [] => none
  | (other, value) :: rest => if other = key then some value else findIn key rest

/-- Replace the value of the first entry with the key, or append a new entry. -/
def insertIn (key : κ) (value : α) : List (κ × α) → List (κ × α)
  | [] => [(key, value)]
  | (other, old) :: rest =>
      if other = key then (key, value) :: rest else (other, old) :: insertIn key value rest

/-- The value of a key. -/
def find? (table : Table κ α) (key : κ) : Option α := findIn key table.entries

/-- The key has a value. -/
def contains (table : Table κ α) (key : κ) : Bool := (table.find? key).isSome

/-- Give the key a value, replacing the one it had. -/
def insert (table : Table κ α) (key : κ) (value : α) : Table κ α :=
  ⟨insertIn key value table.entries⟩

/-- Take the key out of the table. -/
def erase (table : Table κ α) (key : κ) : Table κ α := table.filterKeys (fun other => other ≠ key)

/-- Change the value of a key that is present. -/
def modify (table : Table κ α) (key : κ) (change : α → α) : Table κ α :=
  match table.find? key with
  | some value => table.insert key (change value)
  | none => table

/-! ### What one operation does to a lookup -/

theorem findIn_insertIn (key other : κ) (value : α) (entries : List (κ × α)) :
    findIn other (insertIn key value entries) =
      if key = other then some value else findIn other entries := by
  induction entries with
  | nil => simp [insertIn, findIn]
  | cons entry rest ih =>
      obtain ⟨k, v⟩ := entry
      by_cases hk : k = key
      · subst hk
        by_cases ho : k = other <;> simp [insertIn, findIn, ho]
      · by_cases ho : k = other
        · subst ho
          simp [insertIn, findIn, hk, Ne.symm hk]
        · simp [insertIn, findIn, hk, ho, ih]

@[simp]
theorem find?_insert (table : Table κ α) (key other : κ) (value : α) :
    (table.insert key value).find? other =
      if key = other then some value else table.find? other :=
  findIn_insertIn key other value table.entries

theorem findIn_filter (keep : κ → Bool) (key : κ) (entries : List (κ × α)) :
    findIn key (entries.filter fun entry => keep entry.1) =
      if keep key then findIn key entries else none := by
  induction entries with
  | nil => simp [findIn]
  | cons entry rest ih =>
      obtain ⟨k, v⟩ := entry
      by_cases hk : keep k <;> by_cases ho : k = key
      · subst ho; simp [findIn, hk]
      · simp [findIn, hk, ho, ih]
      · subst ho; simp [hk, ih]
      · simp [findIn, hk, ho, ih]

@[simp]
theorem find?_filterKeys (keep : κ → Bool) (table : Table κ α) (key : κ) :
    (table.filterKeys keep).find? key = if keep key then table.find? key else none :=
  findIn_filter keep key table.entries

@[simp]
theorem find?_erase (table : Table κ α) (key other : κ) :
    (table.erase key).find? other = if other = key then none else table.find? other := by
  simp only [erase, find?_filterKeys]
  by_cases h : other = key <;> simp [h]

@[simp]
theorem find?_modify (table : Table κ α) (key other : κ) (change : α → α) :
    (table.modify key change).find? other =
      if key = other then (table.find? key).map change else table.find? other := by
  rw [modify]
  by_cases h : key = other
  · subst h
    cases found : table.find? key <;> simp [found]
  · cases table.find? key <;> simp [h]

theorem mem_of_findIn {key : κ} {value : α} {entries : List (κ × α)}
    (found : findIn key entries = some value) : (key, value) ∈ entries := by
  induction entries with
  | nil => cases found
  | cons entry rest ih =>
      obtain ⟨k, v⟩ := entry
      rw [findIn] at found
      split at found
      case isTrue same =>
        cases found
        rw [same]
        exact List.mem_cons_self ..
      case isFalse => exact List.mem_cons_of_mem _ (ih found)

theorem mem_of_find? {table : Table κ α} {key : κ} {value : α}
    (found : table.find? key = some value) : (key, value) ∈ table.entries :=
  mem_of_findIn found

@[simp]
theorem find?_empty (key : κ) : (empty : Table κ α).find? key = none := rfl

theorem mem_keys_iff {table : Table κ α} {key : κ} :
    key ∈ table.keys ↔ ∃ value, table.find? key = some value := by
  constructor
  · obtain ⟨entries⟩ := table
    intro member
    induction entries with
    | nil => cases member
    | cons entry rest ih =>
        obtain ⟨k, v⟩ := entry
        by_cases same : k = key
        · exact ⟨v, if_pos same⟩
        · obtain ⟨value, found⟩ := ih ((List.mem_cons.mp member).resolve_left (Ne.symm same))
          exact ⟨value, (if_neg same).trans found⟩
  · intro ⟨value, found⟩
    exact List.mem_map.mpr ⟨(key, value), mem_of_find? found, rfl⟩

theorem map_fst_insertIn (key : κ) (value : α) (entries : List (κ × α)) :
    (insertIn key value entries).map (·.1) =
      if key ∈ entries.map (·.1) then entries.map (·.1) else entries.map (·.1) ++ [key] := by
  induction entries with
  | nil => rfl
  | cons entry rest ih =>
      obtain ⟨k, v⟩ := entry
      by_cases same : k = key
      · simp [insertIn, same]
      · by_cases present : key ∈ rest.map (·.1)
        · simp only [insertIn, same, if_false, List.map_cons, ih, present, if_true,
            List.mem_cons_of_mem]
        · simp only [insertIn, same, if_false, List.map_cons, ih, present, List.mem_cons,
            Ne.symm same, or_self, List.cons_append]

theorem keys_insert (table : Table κ α) (key : κ) (value : α) :
    (table.insert key value).keys =
      if key ∈ table.keys then table.keys else table.keys ++ [key] :=
  map_fst_insertIn key value table.entries

theorem nodup_keys_insert {table : Table κ α} (once : table.keys.Nodup) (key : κ) (value : α) :
    (table.insert key value).keys.Nodup := by
  rw [keys_insert]
  split
  case isTrue => exact once
  case isFalse isNew =>
    rw [List.nodup_append]
    refine ⟨once, List.pairwise_singleton _ _, fun other member last isLast same => ?_⟩
    rw [List.mem_singleton.mp isLast] at same
    exact isNew (same ▸ member)

/-- In a table that has every key once, a lookup finds every entry. -/
theorem mem_entries_iff {table : Table κ α} (once : table.keys.Nodup) {key : κ} {value : α} :
    (key, value) ∈ table.entries ↔ table.find? key = some value := by
  refine ⟨fun member => ?_, mem_of_find?⟩
  obtain ⟨entries⟩ := table
  induction entries with
  | nil => cases member
  | cons entry rest ih =>
      obtain ⟨k, v⟩ := entry
      obtain ⟨apart, onceRest⟩ := List.nodup_cons.mp once
      rcases List.mem_cons.mp member with here | further
      · cases here
        exact if_pos rfl
      · refine (if_neg ?_).trans (ih onceRest further)
        rintro rfl
        exact apart (List.mem_map.mpr ⟨_, further, rfl⟩)

theorem mem_keys_insert {table : Table κ α} {key other : κ} {value : α} :
    other ∈ (table.insert key value).keys ↔ other = key ∨ other ∈ table.keys := by
  simp only [mem_keys_iff, find?_insert]
  by_cases same : key = other
  · simp [same]
  · simp [same, Ne.symm same]

theorem mem_keys_erase {table : Table κ α} {key other : κ} :
    other ∈ (table.erase key).keys ↔ other ∈ table.keys ∧ other ≠ key := by
  simp only [mem_keys_iff, find?_erase]
  by_cases same : other = key
  · simp [same]
  · simp [same]

end Lookup

end Table

end StyledWidgets

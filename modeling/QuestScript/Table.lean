/-!
Tables: finite maps that keep the order in which their keys first came. Writing to a key that is
there replaces its value in place; a new key goes to the end.
-/

namespace QuestScript

variable {κ α β : Type}

/-- Entries with distinct keys, in the order of the table. -/
structure Table (κ α : Type) where
  entries : List (κ × α)
  distinct : (entries.map Prod.fst).Nodup
deriving DecidableEq, Repr

namespace Table

/-- The entries with a value written to a key: in place if the key is there, else at the end. -/
def putEntry [DecidableEq κ] (key : κ) (value : α) : List (κ × α) → List (κ × α)
  | [] => [(key, value)]
  | (k, v) :: rest => if k = key then (key, value) :: rest else (k, v) :: putEntry key value rest

theorem mem_keys_putEntry [DecidableEq κ] (key : κ) (value : α) (entries : List (κ × α)) (k : κ) :
    k ∈ (putEntry key value entries).map Prod.fst ↔ k = key ∨ k ∈ entries.map Prod.fst := by
  induction entries with
  | nil => simp [putEntry]
  | cons entry rest ih =>
      obtain ⟨k', v⟩ := entry
      by_cases hKey : k' = key
      · subst hKey
        simp [putEntry]
      · simp only [putEntry, hKey, if_false, List.map_cons, List.mem_cons, ih]
        constructor
        · rintro (h | h | h)
          · exact Or.inr (Or.inl h)
          · exact Or.inl h
          · exact Or.inr (Or.inr h)
        · rintro (h | h | h)
          · exact Or.inr (Or.inl h)
          · exact Or.inl h
          · exact Or.inr (Or.inr h)

/-- Putting an entry keeps the keys distinct, so a table can carry the proof of it. -/
theorem nodup_keys_putEntry [DecidableEq κ] (key : κ) (value : α) {entries : List (κ × α)}
    (hDistinct : (entries.map Prod.fst).Nodup) :
    ((putEntry key value entries).map Prod.fst).Nodup := by
  induction entries with
  | nil => simp [putEntry]
  | cons entry rest ih =>
      obtain ⟨k, v⟩ := entry
      rw [List.map_cons, List.nodup_cons] at hDistinct
      by_cases hKey : k = key
      · subst hKey
        simp only [putEntry, if_true, List.map_cons, List.nodup_cons]
        exact hDistinct
      · rw [putEntry, if_neg hKey, List.map_cons, List.nodup_cons, mem_keys_putEntry]
        exact ⟨fun h => h.elim hKey hDistinct.1, ih hDistinct.2⟩

def empty : Table κ α := ⟨[], List.nodup_nil⟩

instance : Inhabited (Table κ α) := ⟨empty⟩

instance : EmptyCollection (Table κ α) := ⟨empty⟩

def put [DecidableEq κ] (table : Table κ α) (key : κ) (value : α) : Table κ α :=
  ⟨putEntry key value table.entries, nodup_keys_putEntry key value table.distinct⟩

def erase [DecidableEq κ] (table : Table κ α) (key : κ) : Table κ α :=
  ⟨table.entries.filter fun entry => entry.1 ≠ key,
    (List.filter_sublist.map Prod.fst).nodup table.distinct⟩

/-- Writes entries in turn, a later one over an earlier one of the same key. -/
def ofList [DecidableEq κ] (entries : List (κ × α)) : Table κ α :=
  entries.foldl (fun table entry => table.put entry.1 entry.2) empty

def keys (table : Table κ α) : List κ := table.entries.map Prod.fst

def get? [DecidableEq κ] (table : Table κ α) (key : κ) : Option α := table.entries.lookup key

def contains [DecidableEq κ] (table : Table κ α) (key : κ) : Bool := (table.get? key).isSome

def isEmpty (table : Table κ α) : Bool := table.entries.isEmpty

def size (table : Table κ α) : Nat := table.entries.length

def map (f : α → β) (table : Table κ α) : Table κ β :=
  ⟨table.entries.map fun entry => (entry.1, f entry.2), by
    simpa [List.map_map, Function.comp_def] using table.distinct⟩

/-- Whether two tables have the same keys with equal values, in any order. -/
def sameEntries [DecidableEq κ] [BEq α] (left right : Table κ α) : Bool :=
  left.size == right.size &&
    left.entries.all fun entry => right.get? entry.1 == some entry.2

end Table

end QuestScript

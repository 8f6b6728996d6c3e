import QuestScript.Table
import Mathlib.Data.List.Induction
import Mathlib.Data.List.Nodup
/-!
Tables by their entries: what is looked up, what is written, and that a table is made up of its entries
again. A table is updated by another one entry by entry, which comes to the same as writing in turn
whatever the other one was made up of.
-/

namespace QuestScript

theorem notMem_of_nodup_append {α : Type} {items more : List α} {item : α}
    (hItems : (items ++ item :: more).Nodup) : item ∉ items := by
  intro hMem
  exact (List.nodup_append.1 hItems).2.2 item hMem item List.mem_cons_self rfl

namespace Table

theorem map_map {κ α β γ : Type} (f : α → β) (g : β → γ) (table : Table κ α) :
    (table.map f).map g = table.map (g ∘ f) := by
  simp [map, Function.comp_def]

theorem map_eq_self {κ α : Type} {f : α → α} {table : Table κ α}
    (hFixed : ∀ entry ∈ table.entries, f entry.2 = entry.2) : table.map f = table := by
  obtain ⟨entries, distinct⟩ := table
  have hEntries : entries.map (fun entry => (entry.1, f entry.2)) = entries.map id :=
    List.map_congr_left fun entry hMem => congrArg (entry.1, ·) (hFixed entry hMem)
  simpa [map] using hEntries

theorem eq_empty_of_isEmpty {κ α : Type} {table : Table κ α} (hEmpty : table.isEmpty = true) :
    table = empty := by
  obtain ⟨entries, distinct⟩ := table
  have hEntries : entries = [] := by simpa [isEmpty] using hEmpty
  subst hEntries
  rfl

variable {κ α : Type} [DecidableEq κ]

/-- In a list of distinct keys each entry is found under its key. -/
theorem lookup_of_mem {entries : List (κ × α)} (hDistinct : (entries.map Prod.fst).Nodup)
    {entry : κ × α} (hMem : entry ∈ entries) : entries.lookup entry.1 = some entry.2 := by
  induction entries with
  | nil => cases hMem
  | cons first entries ih =>
      rw [List.map_cons, List.nodup_cons] at hDistinct
      rcases List.mem_cons.1 hMem with rfl | hMem
      · exact List.lookup_cons_self
      · have hKey : entry.1 ≠ first.1 :=
          fun hEq => hDistinct.1 (hEq ▸ List.mem_map.2 ⟨entry, hMem, rfl⟩)
        have hBeq : (entry.1 == first.1) = false := by simpa using hKey
        rw [List.lookup_cons, hBeq]
        exact ih hDistinct.2 hMem

theorem get?_of_mem {table : Table κ α} {entry : κ × α} (hMem : entry ∈ table.entries) :
    table.get? entry.1 = some entry.2 :=
  lookup_of_mem table.distinct hMem

theorem sameEntries_refl [BEq α] [LawfulBEq α] (table : Table κ α) :
    table.sameEntries table = true := by
  simp only [sameEntries, Bool.and_eq_true, List.all_eq_true, beq_self_eq_true, true_and]
  intro entry hMem
  rw [get?_of_mem hMem]
  exact beq_self_eq_true _

theorem mem_putEntry {entries : List (κ × α)} {key : κ} {value : α} {entry : κ × α}
    (hMem : entry ∈ putEntry key value entries) : entry = (key, value) ∨ entry ∈ entries := by
  induction entries with
  | nil => exact Or.inl (by simpa [putEntry] using hMem)
  | cons first rest ih =>
      obtain ⟨k, v⟩ := first
      rw [putEntry] at hMem
      split at hMem
      · rcases List.mem_cons.1 hMem with rfl | hMem
        · exact Or.inl rfl
        · exact Or.inr (List.mem_cons_of_mem _ hMem)
      · rcases List.mem_cons.1 hMem with rfl | hMem
        · exact Or.inr (List.mem_cons_self ..)
        · exact (ih hMem).imp_right (List.mem_cons_of_mem _)

/-- A new key is put at the end. -/
theorem putEntry_of_notMem {key : κ} {value : α} {entries : List (κ × α)}
    (hFresh : key ∉ entries.map Prod.fst) : putEntry key value entries = entries ++ [(key, value)] := by
  induction entries with
  | nil => rfl
  | cons entry entries ih =>
      rw [List.map_cons, List.mem_cons, not_or] at hFresh
      rw [putEntry, if_neg (Ne.symm hFresh.1), ih hFresh.2]
      rfl

theorem lookup_cons_eq_ite (entry : κ × α) (entries : List (κ × α)) (key : κ) :
    (entry :: entries).lookup key = if key = entry.1 then some entry.2 else entries.lookup key := by
  rw [List.lookup_cons]
  by_cases hKey : key = entry.1
  · rw [if_pos hKey, beq_iff_eq.2 hKey]
  · rw [if_neg hKey, beq_eq_false_iff_ne.2 hKey]

/-- Putting an entry changes what is found under its key and nothing else. -/
theorem lookup_putEntry (key : κ) (value : α) (entries : List (κ × α)) (other : κ) :
    (putEntry key value entries).lookup other =
      if other = key then some value else entries.lookup other := by
  induction entries with
  | nil => rw [putEntry, lookup_cons_eq_ite]
  | cons first rest ih =>
      obtain ⟨k, v⟩ := first
      rw [putEntry, lookup_cons_eq_ite]
      split
      · next hKey =>
          subst hKey
          rw [lookup_cons_eq_ite]
          split <;> rfl
      · next hKey =>
          rw [lookup_cons_eq_ite, ih]
          split
          · next hOther => rw [if_neg (by rwa [hOther])]
          · rfl

/-- What is looked up after a write. -/
theorem get?_put (table : Table κ α) (key : κ) (value : α) (other : κ) :
    (table.put key value).get? other = if other = key then some value else table.get? other :=
  lookup_putEntry key value table.entries other

/-- A second write to a key takes the place of the first. -/
theorem put_put (table : Table κ α) (key : κ) (first second : α) :
    (table.put key first).put key second = table.put key second := by
  have hEntries : ∀ entries : List (κ × α),
      putEntry key second (putEntry key first entries) = putEntry key second entries := by
    intro entries
    induction entries with
    | nil => simp [putEntry]
    | cons entry rest ih =>
        by_cases hKey : entry.1 = key
        · simp [putEntry, hKey]
        · simp [putEntry, hKey, ih]
  simp only [put, hEntries]

theorem keys_put {table : Table κ α} {key : κ} (hFresh : key ∉ table.keys) (value : α) :
    (table.put key value).keys = table.keys ++ [key] := by
  change (putEntry key value table.entries).map Prod.fst = _
  rw [putEntry_of_notMem hFresh, List.map_append]
  rfl

/-- Putting an entry under a key that is there keeps the keys in their order. -/
theorem keys_putEntry_of_mem {key : κ} {value : α} {entries : List (κ × α)}
    (hMem : key ∈ entries.map Prod.fst) :
    (putEntry key value entries).map Prod.fst = entries.map Prod.fst := by
  induction entries with
  | nil => cases hMem
  | cons entry entries ih =>
      rw [putEntry]
      split
      · next hKey => rw [List.map_cons, List.map_cons, hKey]
      · next hKey =>
          have hLater := (List.mem_cons.1 hMem).resolve_left (Ne.symm hKey)
          rw [List.map_cons, List.map_cons, ih hLater]

/-- A write to a key that is there leaves the keys as they are. -/
theorem keys_put_of_mem {table : Table κ α} {key : κ} (hMem : key ∈ table.keys) (value : α) :
    (table.put key value).keys = table.keys :=
  keys_putEntry_of_mem hMem

theorem lookup_eq_none {entries : List (κ × α)} {key : κ} (hFresh : key ∉ entries.map Prod.fst) :
    entries.lookup key = none := by
  refine List.lookup_eq_none_iff.2 fun entry hMem => ?_
  rw [bne_iff_ne]
  rintro rfl
  exact hFresh (List.mem_map_of_mem hMem)

theorem get?_eq_none {table : Table κ α} {key : κ} (hFresh : key ∉ table.keys) :
    table.get? key = none :=
  lookup_eq_none hFresh

/-- Looking up one key depends only on the items with this key. -/
theorem lookup_map_congr {β : Type} {key : β → κ} {value value' : β → α} {items : List β} {k : κ}
    (hSame : ∀ item ∈ items, key item = k → value' item = value item) :
    (items.map fun item => (key item, value' item)).lookup k =
      (items.map fun item => (key item, value item)).lookup k := by
  induction items with
  | nil => rfl
  | cons item items ih =>
      obtain ⟨hFirst, hMore⟩ := List.forall_mem_cons.1 hSame
      rw [List.map_cons, List.map_cons, lookup_cons_eq_ite, lookup_cons_eq_ite, ih hMore]
      by_cases hKey : k = key item
      · rw [if_pos hKey, if_pos hKey, hFirst hKey.symm]
      · rw [if_neg hKey, if_neg hKey]

/-- What is looked up is an entry. -/
theorem mem_of_lookup {entries : List (κ × α)} {key : κ} {value : α}
    (hLookup : entries.lookup key = some value) : (key, value) ∈ entries := by
  induction entries with
  | nil => cases hLookup
  | cons entry entries ih =>
      rw [lookup_cons_eq_ite] at hLookup
      split at hLookup
      · next hKey =>
          cases hLookup
          rw [hKey]
          exact List.mem_cons_self
      · exact List.mem_cons_of_mem _ (ih hLookup)

/-- A value is looked up exactly where it is an entry with the key: keys do not repeat. -/
theorem get?_eq_some_iff {table : Table κ α} {key : κ} {value : α} :
    table.get? key = some value ↔ (key, value) ∈ table.entries :=
  ⟨mem_of_lookup, get?_of_mem⟩

/-- Entries with distinct keys are put one behind the other. -/
theorem foldl_put (entries : List (κ × α)) (table : Table κ α)
    (hKeys : ((table.entries ++ entries).map Prod.fst).Nodup) :
    entries.foldl (fun table entry => table.put entry.1 entry.2) table =
      ⟨table.entries ++ entries, hKeys⟩ := by
  induction entries generalizing table with
  | nil => simp
  | cons entry entries ih =>
      have hFresh : entry.1 ∉ table.entries.map Prod.fst := by
        rw [List.map_append, List.map_cons] at hKeys
        exact notMem_of_nodup_append hKeys
      have hEntries : (table.put entry.1 entry.2).entries = table.entries ++ [entry] :=
        putEntry_of_notMem hFresh
      rw [List.foldl_cons, ih (table.put entry.1 entry.2) (by simpa [hEntries] using hKeys)]
      simp only [hEntries, List.append_assoc, List.singleton_append]

/-- A table is made up of its entries. -/
theorem ofList_entries (table : Table κ α) : ofList table.entries = table :=
  foldl_put table.entries empty table.distinct

/-- What a table of some entries holds is among them. -/
theorem mem_of_mem_ofList {entries : List (κ × α)} {entry : κ × α}
    (hMem : entry ∈ (ofList entries).entries) : entry ∈ entries := by
  induction entries using List.reverseRecOn with
  | nil => cases hMem
  | append_singleton entries last ih =>
      rw [ofList, List.foldl_append] at hMem
      rcases mem_putEntry hMem with hLast | hOld
      · exact List.mem_append_right _ (List.mem_singleton.2 hLast)
      · exact List.mem_append_left _ (ih hOld)

/-! ### Updates -/

/-- The entries of a table are its keys with what is looked up for them. -/
theorem map_some_entries (table : Table κ α) :
    table.entries.map some = table.keys.map fun key => (table.get? key).map (key, ·) := by
  rw [keys, List.map_map]
  refine List.map_congr_left fun entry hMem => ?_
  rw [Function.comp_apply, get?_of_mem hMem]
  rfl

omit [DecidableEq κ] in
theorem entries_injective {entries entries' : List (κ × α)}
    (hSome : entries.map some = entries'.map some) : entries = entries' :=
  List.map_injective_iff.2 (fun _ _ hSame => Option.some.inj hSame) hSome

/-- A table is known by its keys in their order and by what is looked up in it. -/
theorem ext_of_get? {table other : Table κ α} (hKeys : table.keys = other.keys)
    (hGet : ∀ key, table.get? key = other.get? key) : table = other := by
  have hSame : table.entries = other.entries := by
    apply entries_injective
    rw [map_some_entries, map_some_entries, hKeys]
    exact List.map_congr_left fun key _ => by rw [hGet key]
  cases table
  cases other
  cases hSame
  rfl

/-- The table with the entries of another written to it, in their order. -/
def updated (table other : Table κ α) : Table κ α :=
  other.entries.foldl (fun table entry => table.put entry.1 entry.2) table

/-- Keys that are there keep their places, and the new ones follow in their order. -/
theorem keys_updated (table other : Table κ α) :
    (table.updated other).keys =
      table.keys ++ other.keys.filter fun key => key ∉ table.keys := by
  obtain ⟨entries, distinct⟩ := other
  change (entries.foldl _ table).keys = table.keys ++ (entries.map Prod.fst).filter _
  induction entries generalizing table with
  | nil => simp
  | cons entry entries ih =>
      rw [List.map_cons, List.nodup_cons] at distinct
      rw [List.foldl_cons, ih (table.put entry.1 entry.2) distinct.2, List.map_cons]
      by_cases hKey : entry.1 ∈ table.keys
      · rw [keys_put_of_mem hKey, List.filter_cons_of_neg (by simpa using hKey)]
      · rw [keys_put hKey, List.filter_cons_of_pos (by simpa using hKey), List.append_assoc,
          List.singleton_append]
        refine congrArg (table.keys ++ entry.1 :: ·) (List.filter_congr fun key hMem => ?_)
        have hOther : key ≠ entry.1 := fun hSame => distinct.1 (hSame ▸ hMem)
        simp [hOther]

/-- The keys of an updated table are those of both. -/
theorem mem_keys_updated {table other : Table κ α} {key : κ} :
    key ∈ (table.updated other).keys ↔ key ∈ table.keys ∨ key ∈ other.keys := by
  rw [keys_updated, List.mem_append, List.mem_filter, decide_eq_true_iff]
  tauto

/-- What is looked up in an updated table is what the update says, and else what was there. -/
theorem get?_updated (table other : Table κ α) (key : κ) :
    (table.updated other).get? key = (other.get? key).or (table.get? key) := by
  obtain ⟨entries, distinct⟩ := other
  change (entries.foldl _ table).get? key = (entries.lookup key).or (table.get? key)
  induction entries generalizing table with
  | nil => rfl
  | cons entry entries ih =>
      rw [List.map_cons, List.nodup_cons] at distinct
      rw [List.foldl_cons, ih (table.put entry.1 entry.2) distinct.2, get?_put, lookup_cons_eq_ite]
      split
      · next hKey =>
          rw [hKey, lookup_eq_none distinct.1]
          rfl
      · rfl

/-- An update replaces the values of the keys that are there, in their places, and the other entries
follow in their order. -/
theorem entries_updated (table other : Table κ α) :
    (table.updated other).entries =
      table.entries.map (fun entry => (entry.1, (other.get? entry.1).getD entry.2)) ++
        other.entries.filter fun entry => entry.1 ∉ table.keys := by
  have hReplaced : table.keys.map (fun key =>
      ((other.get? key).or (table.get? key)).map (key, ·)) =
        (table.entries.map fun entry =>
          (entry.1, (other.get? entry.1).getD entry.2)).map some := by
    rw [keys, List.map_map, List.map_map]
    refine List.map_congr_left fun entry hMem => ?_
    rw [Function.comp_apply, get?_of_mem hMem]
    cases hOther : other.get? entry.1 <;> simp [hOther]
  have hFollowing : (other.keys.filter fun key => key ∉ table.keys).map (fun key =>
      ((other.get? key).or (table.get? key)).map (key, ·)) =
        (other.entries.filter fun entry => entry.1 ∉ table.keys).map some := by
    change ((other.entries.map Prod.fst).filter _).map _ = _
    rw [List.filter_map, List.map_map]
    refine List.map_congr_left fun entry hMem => ?_
    have hNew : entry.1 ∉ table.keys := by simpa using List.of_mem_filter hMem
    rw [Function.comp_apply, get?_of_mem (List.mem_of_mem_filter hMem), get?_eq_none hNew]
    rfl
  apply entries_injective
  simp only [map_some_entries, keys_updated, get?_updated, List.map_append, hReplaced, hFollowing]

/-- A key that is written to the update is written to the updated table. -/
theorem updated_put (table other : Table κ α) (key : κ) (value : α) :
    table.updated (other.put key value) = (table.updated other).put key value := by
  apply ext_of_get?
  · rw [keys_updated]
    by_cases hOther : key ∈ other.keys
    · rw [keys_put_of_mem hOther, keys_put_of_mem (mem_keys_updated.2 (Or.inr hOther)),
        keys_updated]
    · rw [keys_put hOther, List.filter_append]
      by_cases hKey : key ∈ table.keys
      · rw [keys_put_of_mem (mem_keys_updated.2 (Or.inl hKey)), keys_updated]
        simp [hKey]
      · rw [keys_put (by simp [mem_keys_updated, hKey, hOther]), keys_updated]
        simp [hKey]
  · intro k
    rw [get?_updated, get?_put, get?_put, get?_updated]
    split <;> rfl

/-- Updating by a table is writing in turn the entries that the table was made up of. -/
theorem updated_ofList (table : Table κ α) (entries : List (κ × α)) :
    table.updated (ofList entries) =
      entries.foldl (fun table entry => table.put entry.1 entry.2) table := by
  induction entries using List.reverseRecOn with
  | nil => rfl
  | append_singleton entries last ih =>
      rw [ofList, List.foldl_append, List.foldl_append, ← ih]
      exact updated_put table (ofList entries) last.1 last.2

theorem updated_empty (table : Table κ α) : table.updated empty = table := rfl

end Table

end QuestScript

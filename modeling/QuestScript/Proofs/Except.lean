import Mathlib.Data.List.Basic
/-!
Attempts that succeed or fail: what an attempt that is made up of others says about them, one after
another, for each item of a list, or with a state that is handed on.
-/

namespace QuestScript

variable {ε α β : Type}

/-! ### One after another -/

theorem ok_bind (a : α) (next : α → Except ε β) : (Except.ok a >>= next) = next a := rfl

/-- A computation that succeeds has succeeded in its first step, and goes on from the value of
that step. -/
theorem exists_of_bind_eq_ok {attempt : Except ε α} {next : α → Except ε β} {result : β}
    (hResult : (attempt >>= next) = .ok result) :
    ∃ value, attempt = .ok value ∧ next value = .ok result := by
  cases attempt with
  | error error => cases hResult
  | ok value => exact ⟨value, rfl, hResult⟩

theorem exists_of_map_eq_ok {attempt : Except ε α} {change : α → β} {result : β}
    (hResult : attempt.map change = .ok result) :
    ∃ value, attempt = .ok value ∧ change value = result := by
  cases attempt with
  | error error => cases hResult
  | ok value => exact ⟨value, rfl, Except.ok.inj hResult⟩

theorem map_eq_error_iff {attempt : Except ε α} {change : α → β} {error : ε} :
    attempt.map change = .error error ↔ attempt = .error error := by
  cases attempt with
  | error fault => exact ⟨fun hError => by cases hError; rfl, fun hError => by cases hError; rfl⟩
  | ok value => exact ⟨nofun, nofun⟩

/-! ### For each item -/

/-- Reading a list succeeds when each item is read, with the results in the order of the items. -/
theorem mapM_eq_ok {read : α → Except ε β} {result : α → β} {items : List α}
    (hRead : ∀ item ∈ items, read item = .ok (result item)) :
    items.mapM read = .ok (items.map result) := by
  induction items with
  | nil => rfl
  | cons item items ih =>
      obtain ⟨hFirst, hRest⟩ := List.forall_mem_cons.1 hRead
      rw [List.mapM_cons, hFirst, ih hRest]
      rfl

/-- What comes out comes from some item. -/
theorem exists_of_mem_mapM {read : α → Except ε β} {items : List α} {values : List β}
    (hRead : items.mapM read = .ok values) {value : β} (hMem : value ∈ values) :
    ∃ item ∈ items, read item = .ok value := by
  induction items generalizing values with
  | nil =>
      cases hRead
      cases hMem
  | cons first items ih =>
      rw [List.mapM_cons] at hRead
      obtain ⟨head, hFirst, hRest⟩ := exists_of_bind_eq_ok hRead
      obtain ⟨rest, hMore, hValues⟩ := exists_of_bind_eq_ok hRest
      cases hValues
      rcases List.mem_cons.1 hMem with rfl | hLater
      · exact ⟨first, List.mem_cons_self, hFirst⟩
      · obtain ⟨item, hItem, hValue⟩ := ih hMore hLater
        exact ⟨item, List.mem_cons_of_mem _ hItem, hValue⟩

/-- One item that fails makes the whole fail, with the fault of some item. -/
theorem mapM_eq_error (read : α → Except ε β) {items : List α} {item : α} (hMem : item ∈ items)
    {error : ε} (hItem : read item = .error error) :
    ∃ error, items.mapM read = .error error ∧ ∃ other ∈ items, read other = .error error := by
  induction items with
  | nil => cases hMem
  | cons first items ih =>
      rw [List.mapM_cons]
      cases hFirst : read first with
      | error fault => exact ⟨fault, rfl, first, List.mem_cons_self, hFirst⟩
      | ok value =>
          rcases List.mem_cons.1 hMem with rfl | hMore
          · rw [hFirst] at hItem
            cases hItem
          · obtain ⟨fault, hFault, other, hOther, hRead⟩ := ih hMore
            refine ⟨fault, ?_, other, List.mem_cons_of_mem _ hOther, hRead⟩
            rw [hFault]
            rfl

/-! ### With a state -/

/-- Two steps that agree on the items of a list take every state through the list alike. -/
theorem foldlM_congr {step step' : β → α → Except ε β} {items : List α}
    (hStep : ∀ item ∈ items, ∀ state, step' state item = step state item) (state : β) :
    items.foldlM step' state = items.foldlM step state := by
  induction items generalizing state with
  | nil => rfl
  | cons item items ih =>
      obtain ⟨hFirst, hMore⟩ := List.forall_mem_cons.1 hStep
      rw [List.foldlM_cons, List.foldlM_cons, hFirst]
      apply congrArg (step state item >>= ·)
      funext next
      exact ih hMore next

end QuestScript

import QuestScript.Proofs.Number.Decimal
import QuestScript.Quest.Editing
import Mathlib.Data.List.Dedup
import Mathlib.Data.List.Perm.Subperm
import Mathlib.Data.List.Range
import Mathlib.Data.Nat.Find
/-!
Names for new states. The search for a free one is a loop without a bound: a name that is taken is
replaced by the base with the next number. It comes to an end because the names that it tries differ
from one another, so that it can make no more turns than there are names that are taken.
-/

namespace QuestScript

/-! ### Candidates -/

/-- Different numbers give different candidates, since a decimal text determines its number. -/
theorem stateNameCandidate_injective (base : String) :
    Function.Injective (stateNameCandidate base) := by
  have hDigits (n : Nat) : (base ++ toString n).toList = base.toList ++ Nat.toDigits 10 n := by
    rw [String.toList_append, Nat.toString_eq_repr, Nat.toList_repr]
  intro left right hEq
  have hList := congrArg String.toList hEq
  cases left with
  | zero =>
      cases right with
      | zero => rfl
      | succ right =>
          rw [stateNameCandidate, stateNameCandidate, hDigits, List.self_eq_append_right] at hList
          exact absurd hList Nat.toDigits_ne_nil
  | succ left =>
      cases right with
      | zero =>
          rw [stateNameCandidate, stateNameCandidate, hDigits, List.append_right_eq_self] at hList
          exact absurd hList Nat.toDigits_ne_nil
      | succ right =>
          rw [stateNameCandidate, stateNameCandidate, hDigits, hDigits,
            List.append_cancel_left_eq] at hList
          rw [← Integer.readDigits_toDigits (left + 1), hList, Integer.readDigits_toDigits]

/-- Candidates that are taken are no more than the distinct names that are taken. -/
theorem le_of_candidates_taken {taken : List String} {base : String} {count : Nat}
    (hTaken : ∀ number < count, stateNameCandidate base number ∈ taken) :
    count ≤ taken.dedup.length := by
  have hAll : (List.range count).map (stateNameCandidate base) ⊆ taken.dedup := by
    intro name hName
    obtain ⟨number, hNumber, rfl⟩ := List.mem_map.1 hName
    exact List.mem_dedup.2 (hTaken number (List.mem_range.1 hNumber))
  have hDistinct : ((List.range count).map (stateNameCandidate base)).Nodup :=
    List.nodup_range.map (stateNameCandidate_injective base)
  simpa using (List.subperm_of_subset hDistinct hAll).length_le

/-- A candidate is the first one that is free. -/
structure IsFirstFree (taken : List String) (base : String) (number : Nat) : Prop where
  free : stateNameCandidate base number ∉ taken
  earlier : ∀ other < number, stateNameCandidate base other ∈ taken

/-- A free candidate comes at the latest after as many as there are distinct names. This is the
pigeonhole principle. -/
theorem exists_isFirstFree (taken : List String) (base : String) :
    ∃ number ≤ taken.dedup.length, IsFirstFree taken base number := by
  have hFree : ∃ number, stateNameCandidate base number ∉ taken := by
    by_contra hNone
    push Not at hNone
    have hLength : taken.dedup.length + 1 ≤ taken.dedup.length :=
      le_of_candidates_taken fun number _ => hNone number
    exact Nat.not_succ_le_self _ hLength
  have first : IsFirstFree taken base (Nat.find hFree) :=
    ⟨Nat.find_spec hFree, fun other hLess => not_not.1 (Nat.find_min hFree hLess)⟩
  exact ⟨Nat.find hFree, le_of_candidates_taken first.earlier, first⟩

/-- The search with a count finds the first candidate that is free, if the count is large enough. -/
theorem freeStateName_eq {taken : List String} {base : String} {count number offset : Nat}
    (first : IsFirstFree taken base (number + offset)) (hOffset : offset ≤ count) :
    freeStateName taken base count number = stateNameCandidate base (number + offset) := by
  induction count generalizing number offset with
  | zero => rw [Nat.le_zero.1 hOffset, freeStateName, Nat.add_zero]
  | succ count ih =>
      rw [freeStateName]
      cases offset with
      | zero =>
          rw [if_neg]
          · rfl
          · rw [List.contains_iff_mem]
            exact first.free
      | succ offset =>
          rw [if_pos]
          · rw [Nat.add_comm offset 1, ← Nat.add_assoc] at first ⊢
            exact ih first (Nat.le_of_succ_le_succ hOffset)
          · rw [List.contains_iff_mem]
            exact first.earlier number (by omega)

/-- The new name is the first candidate that is free. -/
theorem Quest.newStateName_eq {quest : Quest} {base : String} {number : Nat}
    (first : IsFirstFree quest.stateNames base number) :
    quest.newStateName base = stateNameCandidate base number := by
  have hNumber : number ≤ quest.states.length := by
    have hDistinct := (le_of_candidates_taken first.earlier).trans
      (List.dedup_sublist quest.stateNames).length_le
    rwa [Quest.stateNames, List.length_map] at hDistinct
  rw [← Nat.zero_add number] at first
  rw [Quest.newStateName, freeStateName_eq first hNumber, Nat.zero_add]

/-- The name that the search ends with is free. -/
theorem Quest.newStateName_notMem (quest : Quest) (base : String) :
    quest.newStateName base ∉ quest.stateNames := by
  obtain ⟨number, -, first⟩ := exists_isFirstFree quest.stateNames base
  rw [Quest.newStateName_eq first]
  exact first.free

/-! ### The loop -/

/-- A search for a free name: the name that is tried, and the number that the next one gets. -/
structure NameSearch where
  name : String
  number : Nat
deriving DecidableEq, Repr

namespace NameSearch

/-- The search at its beginning, where the base itself is tried. -/
def start (base : String) : NameSearch := ⟨base, 1⟩

def next (base : String) (search : NameSearch) : NameSearch :=
  ⟨base ++ toString search.number, search.number + 1⟩

/-- Exactly so many turns of the loop, which goes on as long as the name that is tried is taken. -/
inductive RunsFor (taken : List String) (base : String) :
    NameSearch → NameSearch → Nat → Prop where
  | zero (search : NameSearch) : RunsFor taken base search search 0
  | succ {first last : NameSearch} {turns : Nat} (prior : RunsFor taken base first last turns)
      (hTaken : last.name ∈ taken) : RunsFor taken base first (last.next base) (turns + 1)

variable {taken : List String} {base : String}

def atCandidate (base : String) (number : Nat) : NameSearch :=
  ⟨stateNameCandidate base number, number + 1⟩

theorem next_atCandidate (base : String) (number : Nat) :
    (atCandidate base number).next base = atCandidate base (number + 1) := rfl

/-- After some turns the loop is at the candidate of their number, and the earlier ones are taken. -/
theorem RunsFor.eq_atCandidate {search : NameSearch} {turns : Nat}
    (run : RunsFor taken base (start base) search turns) :
    search = atCandidate base turns ∧ ∀ other < turns, stateNameCandidate base other ∈ taken := by
  induction run with
  | zero => exact ⟨rfl, nofun⟩
  | @succ last turns prior hTaken ih =>
      obtain ⟨rfl, hEarlier⟩ := ih
      refine ⟨next_atCandidate base turns, fun other hLess => ?_⟩
      rcases Nat.lt_or_eq_of_le (Nat.le_of_lt_succ hLess) with hBefore | rfl
      · exact hEarlier other hBefore
      · exact hTaken

/-- The search makes as many turns as there are taken candidates before the free one. -/
theorem runsFor_atCandidate {turns : Nat}
    (hEarlier : ∀ other < turns, stateNameCandidate base other ∈ taken) :
    RunsFor taken base (start base) (atCandidate base turns) turns := by
  induction turns with
  | zero => exact RunsFor.zero _
  | succ turns ih =>
      have prior := ih fun other hLess => hEarlier other (Nat.lt_succ_of_lt hLess)
      exact RunsFor.succ prior (hEarlier turns (Nat.lt_succ_self turns))

end NameSearch

/-- The search for a name for a new state ends after no more turns than the states have distinct names,
at the first name out of the base, and the base with one, two and so on, that no state has. It cannot go
on any longer. -/
theorem Quest.newStateName_search_ends (quest : Quest) (base : String) :
    ∃ turns ≤ quest.stateNames.dedup.length, ∃ search : NameSearch,
      NameSearch.RunsFor quest.stateNames base (.start base) search turns ∧
        search.name = quest.newStateName base ∧
        search.name = stateNameCandidate base turns ∧ search.name ∉ quest.stateNames ∧
        (∀ other < turns, stateNameCandidate base other ∈ quest.stateNames) ∧
        ∀ (later : NameSearch) (more : Nat),
          NameSearch.RunsFor quest.stateNames base (.start base) later more → more ≤ turns := by
  obtain ⟨turns, hTurns, first⟩ := exists_isFirstFree quest.stateNames base
  refine ⟨turns, hTurns, .atCandidate base turns, NameSearch.runsFor_atCandidate first.earlier,
    (Quest.newStateName_eq first).symm, rfl, first.free, first.earlier, fun later more run => ?_⟩
  by_contra hMore
  exact first.free (run.eq_atCandidate.2 turns (Nat.lt_of_not_le hMore))

/-- States with one name twice, and names that look like candidates: the base ends in a digit. -/
theorem Quest.newStateName_search_ends_sample :
    let quest : Quest :=
      { Quest.blank 7 with states := ["A1", "A12", "B", "A1", "A11", "A14"].map State.named }
    quest.stateNames.dedup.length = 5 ∧ quest.newStateName "A1" = "A13" ∧
      NameSearch.RunsFor quest.stateNames "A1" (.start "A1") ⟨"A13", 4⟩ 3 ∧
      ∀ (later : NameSearch) (more : Nat),
        NameSearch.RunsFor quest.stateNames "A1" (.start "A1") later more → more ≤ 3 := by
  intro quest
  have hName : quest.newStateName "A1" = "A13" := by decide +kernel
  obtain ⟨turns, -, search, run, hSearch, hCandidate, -, -, hMost⟩ :=
    quest.newStateName_search_ends "A1"
  have hTurns : turns = 3 := by
    apply stateNameCandidate_injective "A1"
    rw [← hCandidate, hSearch, hName]
    decide +kernel
  subst hTurns
  obtain rfl := (run.eq_atCandidate).1
  exact ⟨by decide +kernel, hName, run, hMost⟩

end QuestScript

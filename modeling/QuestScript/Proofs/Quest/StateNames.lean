import QuestScript.Proofs.Quest.Outcomes
/-!
Names of states under edits. The names of the states of a quest stay distinct, whatever is edited and
whichever edits fail, at once or half-way. The states that are left keep their order, and a copy comes right after the
state that it is a copy of.

Since names are distinct, a state is followed through a sequence of edits by its name. What one edit
does to the list of names is one of three things; all else is derived from that.
-/

namespace QuestScript

/-! ### What an edit does to the names -/

/-- What can happen to a list of names, with the name that each of them becomes, if it stays. -/
inductive NameStep (names : List String) : (String → Option String) → List String → Prop where
  | kept : NameStep names some names
  | inserted {before after : List String} {name : String} (hNames : names = before ++ after)
      (hFree : name ∉ names) : NameStep names some (before ++ name :: after)
  | replaced {before after : List String} {name : String} {become : Option String}
      (hNames : names = before ++ name :: after) (hFree : ∀ new ∈ become, new ∉ names) :
      NameStep names (fun other => if other = name then become else some other)
        (before ++ (become.toList ++ after))

/-- Renaming or removing a name that is not in the list changes nothing. -/
theorem filterMap_ite_of_notMem {names : List String} {name : String} (hName : name ∉ names)
    (become : Option String) :
    names.filterMap (fun other => if other = name then become else some other) = names := by
  refine (List.filterMap_congr fun other hMem => if_neg ?_).trans List.filterMap_some
  rintro rfl
  exact hName hMem

/-- Names stay distinct, and those that are left keep their order. -/
theorem NameStep.keeps {names names' : List String} {become : String → Option String}
    (hStep : NameStep names become names') (hNames : names.Nodup) :
    names'.Nodup ∧ (names.filterMap become).Sublist names' := by
  cases hStep with
  | kept => exact ⟨hNames, by rw [List.filterMap_some]⟩
  | @inserted before after name hEq hFree =>
      subst hEq
      rw [List.filterMap_some, List.nodup_middle, List.nodup_cons]
      exact ⟨⟨hFree, hNames⟩, (List.sublist_cons_self name after).append_left before⟩
  | @replaced before after name become hEq hFree =>
      subst hEq
      rw [List.nodup_middle, List.nodup_cons, List.mem_append, not_or] at hNames
      obtain ⟨⟨hBefore, hAfter⟩, hRest⟩ := hNames
      have hLeft : (before ++ name :: after).filterMap
          (fun other => if other = name then become else some other) =
            before ++ (become.toList ++ after) := by
        rw [List.filterMap_append, filterMap_ite_of_notMem hBefore, List.filterMap_cons,
          filterMap_ite_of_notMem hAfter, if_pos rfl]
        cases become <;> rfl
      rw [hLeft]
      refine ⟨?_, List.Sublist.refl _⟩
      cases become with
      | none => exact hRest
      | some new =>
          refine List.nodup_middle.2 (List.nodup_cons.2 ⟨fun hMem => hFree new rfl ?_, hRest⟩)
          exact ((List.sublist_cons_self name after).append_left before).subset hMem

/-- An edit of the content of a block keeps its name. -/
theorem State.Changed.name_eq {schema : Schema} {block block' : State}
    (hChanged : block.Changed schema block') : block'.name = block.name := by
  cases hChanged <;> rfl

/-- A block of the same name in the place of a block keeps all names. -/
theorem Quest.setBlock_stateNames {quest : Quest} {ref : BlockRef} {block block' : State}
    (hBlock : quest.block? ref = some block) (hName : block'.name = block.name) :
    (quest.setBlock ref block').stateNames = quest.stateNames := by
  cases ref with
  | main => rfl
  | state index =>
      obtain ⟨place, hPlace, hState⟩ := Option.bind_eq_some_iff.1 hBlock
      have hAt : quest.stateNames[place]? = some block'.name := by
        rw [stateNames, List.getElem?_map, hState, hName, Option.map_some]
      simp only [setBlock, hPlace]
      rw [stateNames, List.map_set]
      obtain ⟨hLess, hEq⟩ := List.getElem?_eq_some_iff.1 hAt
      rw [← hEq]
      exact List.set_getElem_self hLess

/-! ### Sequences of edits -/

namespace Edit

/-- The name that each state goes by after an edit that is carried out. None for the state that the
edit removes. -/
def becomes : Edit → String → Option String
  | .removeState removed => fun name => if name = removed then none else some name
  | .renameState old new => fun name => if name = old then some new else some name
  | _ => some

/-- The name that each state goes by after an edit. An edit that is refused changes none; one that is
stopped half-way has written the names first. -/
def fate (schema : Schema) (quest : Quest) (edit : Edit) : String → Option String :=
  match edit.apply schema quest with
  | .ok _ => edit.becomes
  | .error _ => some

/-- Carries out edits in turn, each with a schema of its own. -/
def runEach (quest : Quest) (steps : List (Schema × Edit)) : Quest :=
  steps.foldl (fun quest step => step.2.run step.1 quest) quest

/-- The name that each state goes by after edits in turn. None for a state that one of them
removes, even if there is a new state of its name at the end. -/
def fateEach (quest : Quest) : List (Schema × Edit) → String → Option String
  | [] => some
  | (schema, edit) :: steps => fun name =>
    (edit.fate schema quest name).bind (fateEach (edit.run schema quest) steps)

/-- Edits one after the other may be cut in two anywhere. -/
theorem runEach_append (quest : Quest) (front back : List (Schema × Edit)) :
    runEach quest (front ++ back) = runEach (runEach quest front) back := List.foldl_append

variable {schema : Schema} {quest quest' : Quest} {edited : Edited}

theorem becomes_of_block? {edit : Edit} {ref : BlockRef} (hRef : edit.block? = some ref) :
    edit.becomes = some := by
  cases edit <;> first | rfl | cases hRef

/-- What one edit that is carried out does to the names of the states. -/
theorem changed_nameStep {edit : Edit} (hChanged : quest.Changed schema edit quest') :
    NameStep quest.stateNames edit.becomes quest'.stateNames := by
  have hAround {before after : List State} {state : State}
      (hStates : quest.states = before ++ state :: after) :
      quest.stateNames = before.map State.name ++ state.name :: after.map State.name := by
    rw [Quest.stateNames, hStates, List.map_append, List.map_cons]
  cases hChanged with
  | addState hFree =>
      have hNames : quest.stateNames = quest.stateNames ++ [] := (List.append_nil _).symm
      simpa [Quest.stateNames, State.named, becomes] using NameStep.inserted hNames hFree
  | @duplicateState _ newName before after source hStates hFree =>
      have hNames : quest.stateNames =
          (before.map State.name ++ [source.name]) ++ after.map State.name := by
        rw [hAround hStates, List.append_assoc, List.singleton_append]
      simpa [Quest.stateNames, becomes] using NameStep.inserted hNames hFree
  | @removeState before after state hStates =>
      have hNone : ∀ new ∈ (none : Option String), new ∉ quest.stateNames := by simp
      simpa [Quest.stateNames, becomes] using NameStep.replaced (hAround hStates) hNone
  | @sameName name =>
      have hSelf : becomes (.renameState name name) = some := by
        funext other
        by_cases hName : other = name <;> simp [becomes, hName]
      rw [hSelf]
      exact NameStep.kept
  | @renameState new before after state hStates hFree =>
      have hSome : ∀ name ∈ some new, name ∉ quest.stateNames := by
        rintro _ ⟨⟩
        exact hFree
      have hRedirected (states : List State) :
          (states.map (State.redirect schema state.name new)).map State.name =
            states.map State.name := by
        rw [List.map_map]
        rfl
      change NameStep quest.stateNames _ (((before ++ _ :: after).map _).map State.name)
      rw [hRedirected, List.map_append, List.map_cons]
      exact NameStep.replaced (hAround hStates) hSome
  | block hRef hBlock hBlockChanged =>
      rw [becomes_of_block? hRef, Quest.setBlock_stateNames hBlock hBlockChanged.name_eq]
      exact NameStep.kept

/-- What an edit does to the names of the states. One that is refused does nothing to them, and one
that is stopped has done all that it does to them. -/
theorem run_nameStep (schema : Schema) (quest : Quest) (edit : Edit) :
    NameStep quest.stateNames (edit.fate schema quest) (edit.run schema quest).stateNames := by
  have hOutcome := edit.run_outcome schema quest
  rw [fate, run]
  generalize (edit.inPlace schema).run quest = ended at hOutcome ⊢
  cases hOutcome with
  | refused hApply =>
      rw [hApply]
      exact NameStep.kept
  | done hApply =>
      rw [hApply]
      exact changed_nameStep (apply_changed hApply)
  | stopped hApply hNames =>
      rw [hApply]
      dsimp only
      rw [hNames]
      exact changed_nameStep (apply_changed hApply)

/-- After any edits the names are distinct, and those that are left stand in the order they had.
The induction is on the list of edits. -/
theorem runEach_stateNames (hNames : quest.stateNames.Nodup) (steps : List (Schema × Edit)) :
    (runEach quest steps).stateNames.Nodup ∧
      (quest.stateNames.filterMap (fateEach quest steps)).Sublist
        (runEach quest steps).stateNames := by
  induction steps generalizing quest with
  | nil =>
      rw [fateEach, List.filterMap_some]
      exact ⟨hNames, List.Sublist.refl _⟩
  | cons step steps ih =>
      obtain ⟨schema, edit⟩ := step
      obtain ⟨hNext, hLeft⟩ := (run_nameStep schema quest edit).keeps hNames
      obtain ⟨hFinal, hRest⟩ := ih hNext
      refine ⟨hFinal, ?_⟩
      have hFate : quest.stateNames.filterMap (fateEach quest ((schema, edit) :: steps)) =
          (quest.stateNames.filterMap (edit.fate schema quest)).filterMap
            (fateEach (edit.run schema quest) steps) := by
        rw [List.filterMap_filterMap]
        rfl
      rw [hFate]
      exact (hLeft.filterMap _).trans hRest

/-- The names of the states stay distinct under any sequence of edits, failed ones included, be it at
once or half-way. From any point of the sequence on, the states that are left at the end keep their
order, and at any point a copy that is made comes right after the state that it is a copy of. -/
theorem runEach_stateNames_distinct (quest : Quest) (steps : List (Schema × Edit))
    (hNames : quest.stateNames.Nodup) :
    (runEach quest steps).stateNames.Nodup ∧
      ∀ front back, steps = front ++ back →
        let reached := runEach quest front
        (reached.stateNames.filterMap (fateEach reached back)).Sublist
            (runEach quest steps).stateNames ∧
          ∀ schema name newName rest, back = (schema, .duplicateState name newName) :: rest →
            ∀ edited quest', (Edit.duplicateState name newName).apply schema reached =
                .ok (edited, quest') →
              ∃ before source copy after, reached.states = before ++ source :: after ∧
                quest'.states = before ++ source :: copy :: after ∧ source.name = name ∧
                copy = { source with name := copy.name } ∧ edited = .state copy := by
  refine ⟨(runEach_stateNames hNames steps).1, ?_⟩
  rintro front back rfl
  have hReached := (runEach_stateNames hNames front).1
  refine ⟨?_, fun schema name newName rest _ edited quest' hEdit => ?_⟩
  · rw [runEach_append]
    exact (runEach_stateNames hReached back).2
  · obtain ⟨copy, hDuplicate, rfl⟩ := tagged_eq_ok hEdit
    obtain ⟨before, source, after, hStates, hName, hCopy, -, rfl⟩ :=
      Quest.duplicateState_eq_ok hDuplicate
    exact ⟨before, source, copy, after, hStates, rfl, hName, hCopy, rfl⟩

/-- A copy with a name made up, a state renamed and one removed, with edits that fail in between: the
new name is taken, and there is no state to copy. The state that is added takes a name that has
become free, and is not the one that was removed. -/
theorem runEach_stateNames_distinct_sample :
    let quest : Quest :=
      { Quest.blank 7 with states := [.named "A", .named "B", .named "ACopy"] }
    let steps : List (Schema × Edit) :=
      [(.empty, .duplicateState "A" none), (.empty, .renameState "B" "ACopy"),
        (.empty, .renameState "A" "D"), (.empty, .removeState "B"),
        (.empty, .duplicateState "B" (some "C")), (.empty, .addState (some "B")),
        (.empty, .setRuleGoto (.state 0) 0 "B")]
    quest.stateNames.Nodup ∧ (runEach quest steps).stateNames = ["D", "ACopy1", "ACopy", "B"] ∧
      (runEach quest steps).stateNames.Nodup ∧
      quest.stateNames.filterMap (fateEach quest steps) = ["D", "ACopy"] ∧
      (quest.stateNames.filterMap (fateEach quest steps)).Sublist
        (runEach quest steps).stateNames := by
  intro quest steps
  have hNames : quest.stateNames.Nodup := by decide
  have hDistinct := runEach_stateNames_distinct quest steps hNames
  exact ⟨hNames, by decide +kernel, hDistinct.1, by decide +kernel,
    (hDistinct.2 [] steps rfl).1⟩

end Edit

end QuestScript

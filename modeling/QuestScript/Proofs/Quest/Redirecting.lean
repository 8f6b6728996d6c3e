import QuestScript.Proofs.Quest.InPlace
/-!
Renaming a state in place. The name is written first, and then reference after reference, those of
the states before those of the main block. What stops it is the first reference whose text cannot be
made anew, or the first action whose argument cannot be taken as text; the state has its new name then
in any case.
-/

namespace QuestScript

open Along (Runs LeftIn)
open InPlace (Ends)

variable {schema : Schema} {old new : String}

/-! ### References -/

/-- The rule with a reference to one state pointing to another. -/
def Rule.redirect (schema : Schema) (old new : String) (rule : Rule) : Rule :=
  if rule.goto = old then rule.setGoto schema new else rule

/-- The action with a reference to one state pointing to another. -/
def Action.redirect (schema : Schema) (old new : String) (action : Action) : Action :=
  if action.navigationTarget? = some old then
    Action.refresh schema { action with params := .quoted new :: action.params.tail }
  else action

/-- The targets of the rules of a state are replaced rule by rule. -/
theorem State.redirect_rules (state : State) :
    (state.redirect schema old new).rules = state.rules.map (Rule.redirect schema old new) := rfl

/-- The actions of a state are redirected action by action. -/
theorem State.redirect_actions (state : State) :
    (state.redirect schema old new).actions =
      state.actions.map (Action.redirect schema old new) := rfl

/-- What stops a rule from being redirected: its text, if it goes to the state. -/
def Rule.redirectFault? (schema : Schema) (old : String) (rule : Rule) : Option EditError :=
  if rule.goto = old then (rule.fault? schema).map EditError.unwritten else none

/-- What stops an action from being redirected: that its target cannot be found out, or its text, if
it leads to the state. -/
def Action.redirectFault? (schema : Schema) (old new : String) (action : Action) :
    Option EditError :=
  match action.targetFault? with
  | some fault => some (.oversize fault)
  | none =>
    if action.navigationTarget? = some old then
      (Action.fault? schema { action with params := .quoted new :: action.params.tail }).map
        EditError.unwritten
    else none

/-- What stops the calls of a block from being redirected. -/
def State.redirectFault? (schema : Schema) (old new : String) (state : State) : Option EditError :=
  (state.rules.findSome? (Rule.redirectFault? schema old)).or
    (state.actions.findSome? (Action.redirectFault? schema old new))

/-- What stops a state from being renamed, once its name is written. -/
def Quest.renameFault? (schema : Schema) (old new : String) (quest : Quest) : Option EditError :=
  (quest.states.findSome? (State.redirectFault? schema old new)).or
    (quest.main.toList.findSome? (State.redirectFault? schema old new))

/-! ### Faults that stay -/

/-- Something that cannot be written: what there was, or both what was to come of it and what is left
of it. -/
def Unwritable {σ : Type} (fault? : σ → Option Integer.Oversize) (start finish left : σ) : Prop :=
  (fault? start).isSome ∨ (fault? finish).isSome ∧ (fault? left).isSome

/-- An edit that leaves a part unwritable leaves the whole unwritable, if the whole fails where
the part does. -/
theorem Unwritable.of_part {σ τ : Type} {fault? : τ → Option Integer.Oversize}
    {fault?' : σ → Option Integer.Oversize} {start finish left : τ} {start' finish' left' : σ}
    (hPart : Unwritable fault? start finish left)
    (hStart : (fault? start).isSome → (fault?' start').isSome)
    (hFinish : (fault? finish).isSome → (fault?' finish').isSome)
    (hLeft : (fault? left).isSome → (fault?' left').isSome) :
    Unwritable fault?' start' finish' left' :=
  hPart.imp hStart fun ⟨hFinished, hStopped⟩ => ⟨hFinish hFinished, hLeft hStopped⟩

/-- A list left half-way has an item that cannot be written, or was stopped at an item that is
left so. -/
theorem Unwritable.leftIn {σ : Type} {fault? : σ → Option Integer.Oversize} {change : σ → σ}
    {Left : σ → σ → Prop} {items left : List σ} (hItems : LeftIn change Left items left)
    (hLeft : ∀ item left, Left item left → Unwritable fault? item (change item) left) :
    Unwritable (List.findSome? fault?) items (items.map change) left := by
  cases hItems with
  | @stopped before after item stopped hItem =>
      rw [List.map_append, List.map_cons]
      refine (hLeft item stopped hItem).of_part ?_ ?_ ?_ <;>
      · intro hFault
        rw [List.findSome?_isSome_iff]
        exact ⟨_, List.mem_append_right _ List.mem_cons_self, hFault⟩

/-- A state cannot be written just if one of its actions or one of its rules cannot. -/
theorem State.fault?_isSome {state : State} :
    (state.fault? schema).isSome ↔
      (state.actions.findSome? (Action.fault? schema)).isSome ∨
        (state.rules.findSome? (Rule.fault? schema)).isSome := by
  rw [State.fault?, Option.isSome_or, Bool.or_eq_true]

/-- A quest cannot be written just if its main block or one of its states cannot. -/
theorem Quest.callFault?_isSome {quest : Quest} :
    (quest.callFault? schema).isSome ↔
      (quest.main.toList.findSome? (State.fault? schema)).isSome ∨
        (quest.states.findSome? (State.fault? schema)).isSome := by
  rw [Quest.callFault?_eq, Option.isSome_or, Bool.or_eq_true]

/-! ### Calls -/

theorem run_redirectRule (schema : Schema) (old new : String) (rule : Rule) :
    (InPlace.redirectRule schema old new).run rule =
      if rule.goto = old then
        (InPlace.written (Refresh.rule schema)).run { rule with goto := new }
      else .ok () rule := by
  rw [InPlace.redirectRule, EStateM.run_bind, EStateM.run_get]
  dsimp only
  split <;> rfl

/-- A rule that stops has its new target, and its arguments, which are at fault, as before. -/
theorem redirectRule_runs (schema : Schema) (old new : String) :
    Runs (InPlace.redirectRule schema old new) (Rule.redirectFault? schema old) (fun _ => ())
      (Rule.redirect schema old new)
      (fun rule left => Unwritable (Rule.fault? schema) rule (rule.redirect schema old new) left) := by
  have hWritten := InPlace.written_runs (Refresh.rule_runs schema)
  constructor
  · intro rule hFault
    unfold Rule.redirectFault? at hFault
    rw [run_redirectRule, Rule.redirect]
    split at hFault
    · next hGoto =>
        rw [if_pos hGoto, if_pos hGoto]
        exact hWritten.ok hFault
    · next hGoto => rw [if_neg hGoto, if_neg hGoto]
  · intro rule error hFault
    unfold Rule.redirectFault? at hFault
    split at hFault
    · next hGoto =>
        rw [run_redirectRule, if_pos hGoto]
        obtain ⟨left, hError, -⟩ := @hWritten.error { rule with goto := new } error hFault
        obtain ⟨fault, hRule, -⟩ := Option.map_eq_some_iff.1 hFault
        exact ⟨left, hError, Or.inl (Option.isSome_of_eq_some hRule)⟩
    · cases hFault

/-- If the argument of an action cannot be taken as text, then it cannot be written, whatever its slot
is. -/
theorem Action.fault?_isSome_of_targetFault? {action : Action}
    (hTarget : action.targetFault?.isSome) : (action.fault? schema).isSome := by
  unfold Action.targetFault? at hTarget
  unfold Action.fault?
  split at hTarget
  · cases hParams : action.params with
    | nil => simp [hParams] at hTarget
    | cons param params =>
        simp only [hParams, List.head?_cons, Option.bind_some] at hTarget
        cases schema.actionSlots action.type with
        | nil => simp [Param.listFault?, hTarget]
        | cons slot slots =>
            cases param with
            | text value bare => simp [Param.valueFault?] at hTarget
            | int value =>
                simp [Param.listFault?, Param.printInFault?_int, hTarget]
  · simp at hTarget

/-- The target is looked for before anything is written, so an integer in its place that cannot be made
a text leaves the action as it was. -/
theorem run_redirectAction (schema : Schema) (old new : String) (action : Action) :
    (InPlace.redirectAction schema old new).run action =
      match action.targetFault? with
      | some fault => .error (.oversize fault) action
      | none =>
        if action.navigationTarget? = some old then
          (InPlace.written (Refresh.action schema)).run
            { action with params := .quoted new :: action.params.tail }
        else .ok () action := by
  rw [InPlace.redirectAction, EStateM.run_bind, EStateM.run_get]
  dsimp only
  cases action.targetFault? with
  | some fault => rfl
  | none =>
      dsimp only
      split <;> rfl

/-- An action that stops is as it was, or has its new target without the text for it. -/
theorem redirectAction_runs (schema : Schema) (old new : String) :
    Runs (InPlace.redirectAction schema old new) (Action.redirectFault? schema old new)
      (fun _ => ()) (Action.redirect schema old new)
      (fun action left =>
        Unwritable (Action.fault? schema) action (action.redirect schema old new) left) := by
  have hWritten := InPlace.written_runs (Refresh.action_runs schema)
  constructor
  · intro action hFault
    unfold Action.redirectFault? at hFault
    rw [run_redirectAction, Action.redirect]
    cases hTarget : action.targetFault? with
    | some fault =>
        rw [hTarget] at hFault
        cases hFault
    | none =>
        rw [hTarget] at hFault
        dsimp only at hFault ⊢
        split at hFault
        · next hNames =>
            rw [if_pos hNames, if_pos hNames]
            exact hWritten.ok hFault
        · next hNames => rw [if_neg hNames, if_neg hNames]
  · intro action error hFault
    unfold Action.redirectFault? at hFault
    rw [run_redirectAction, Action.redirect]
    cases hTarget : action.targetFault? with
    | some fault =>
        rw [hTarget] at hFault
        cases hFault
        have hSome : action.targetFault?.isSome := Option.isSome_of_eq_some hTarget
        exact ⟨action, rfl, Or.inl (Action.fault?_isSome_of_targetFault? hSome)⟩
    | none =>
        rw [hTarget] at hFault
        dsimp only at hFault ⊢
        split at hFault
        · next hNames =>
            rw [if_pos hNames, if_pos hNames]
            obtain ⟨left, hError, rfl⟩ := hWritten.error hFault
            obtain ⟨fault, hAction, -⟩ := Option.map_eq_some_iff.1 hFault
            have hSome := Option.isSome_of_eq_some hAction
            exact ⟨_, hError, Or.inr ⟨hSome, hSome⟩⟩
        · cases hFault

/-! ### Blocks -/

/-- What is left of a block that stopped: it has its name, and something in it cannot be written. -/
structure State.HalfRedirected (schema : Schema) (old new : String) (state left : State) : Prop where
  name : left.name = state.name
  unwritable : Unwritable (State.fault? schema) state (state.redirect schema old new) left

/-- Redirecting a state goes through its rules and its actions in turn. Where it is stopped, what
stands before the stop is redirected already. -/
theorem redirect_runs (schema : Schema) (old new : String) :
    Runs (InPlace.redirect schema old new) (State.redirectFault? schema old new) (fun _ => ())
      (State.redirect schema old new) (State.HalfRedirected schema old new) := by
  have hRules := ((redirectRule_runs schema old new).each.part State.rules fun rules state =>
    { state with rules }).map fun _ => ()
  have hActions := ((redirectAction_runs schema old new).each.part State.actions
    fun actions state => { state with actions }).map fun _ => ()
  refine (hRules.bind (fun _ => hActions) fun _ => rfl).mono ?_
  rintro state left (⟨rules, hLeft, rfl⟩ | ⟨actions, hLeft, rfl⟩)
  · refine ⟨rfl, (Unwritable.leftIn hLeft fun rule left hRule => hRule).of_part ?_ ?_ ?_⟩
    all_goals exact fun hFault => State.fault?_isSome.2 (Or.inr hFault)
  · refine ⟨rfl, (Unwritable.leftIn hLeft fun action left hAction => hAction).of_part ?_ ?_ ?_⟩
    all_goals exact fun hFault => State.fault?_isSome.2 (Or.inl hFault)

/-! ### Quests -/

/-- The quest with all references to one state pointing to another. -/
def Quest.redirect (schema : Schema) (old new : String) (quest : Quest) : Quest :=
  { quest with
    states := quest.states.map (State.redirect schema old new)
    main := quest.main.map (State.redirect schema old new)
    random := quest.random.map (RandomBlock.redirect old new) }

/-- What is left of a quest that stopped: its states have the names that they had, and something in
it cannot be written. -/
structure Quest.HalfRedirected (schema : Schema) (old new : String) (quest left : Quest) : Prop where
  names : left.stateNames = quest.stateNames
  unwritable : Unwritable (Quest.callFault? schema) quest (quest.redirect schema old new) left

/-- Renaming a state, after the checks. The fault is that of the references as they were, since only
the name of a state is written before. -/
theorem redirectAll_runs {α : Type} (schema : Schema) (old new : String) (result : α) :
    Runs (do
        discard (Along.states (InPlace.redirect schema old new))
        discard (Along.main (InPlace.redirect schema old new))
        modify fun quest => { quest with random := quest.random.map (RandomBlock.redirect old new) }
        return result : InPlace Quest α)
      (Quest.renameFault? schema old new) (fun _ => result) (Quest.redirect schema old new)
      (Quest.HalfRedirected schema old new) := by
  have hStates := ((redirect_runs schema old new).each.part Quest.states fun states quest =>
    { quest with states }).map fun _ => ()
  have hMain := ((redirect_runs schema old new).each.part (fun quest : Quest => quest.main.toList)
    fun main quest => { quest with main := main.head? }).map fun _ => ()
  have hRandom := Runs.modify (ε := EditError)
    (fun quest : Quest => { quest with random := quest.random.map (RandomBlock.redirect old new) })
    result
  have hAll := hStates.bind (fun _ => hMain.bind (fun _ => hRandom) fun _ => rfl) fun _ => rfl
  refine (hAll.mono ?_).congr (fun quest => ?_) (fun _ => rfl) fun quest => ?_
  · rintro quest left (⟨states, hLeft, rfl⟩ | ⟨main, hLeft, rfl⟩ | hNever)
    · refine ⟨hLeft.map_eq (fun state => rfl) fun state left hState => hState.name, ?_⟩
      refine (Unwritable.leftIn hLeft fun state left hState => hState.unwritable).of_part ?_ ?_ ?_
      all_goals exact fun hFault => Quest.callFault?_isSome.2 (Or.inr hFault)
    · refine ⟨?_, (Unwritable.leftIn hLeft fun state left hState => hState.unwritable).of_part
        ?_ ?_ ?_⟩
      · simp only [Quest.stateNames, List.map_map]
        rfl
      · exact fun hFault => Quest.callFault?_isSome.2 (Or.inl hFault)
      · intro hFault
        rw [← Option.toList_map] at hFault
        exact Quest.callFault?_isSome.2 (Or.inl hFault)
      · intro hFault
        rw [← hLeft.head?_toList] at hFault
        exact Quest.callFault?_isSome.2 (Or.inl hFault)
    · exact hNever.elim
  · rw [Option.or_none]
    rfl
  · rw [← Option.toList_map, Option.head?_toList]
    rfl

/-- The quest with only the name of a state written. -/
def Quest.withNewName (old new : String) (quest : Quest) : Quest :=
  { quest with
    states := replaceFirst (fun state => state.name = old)
      (fun state => [{ state with name := new }]) quest.states }

/-- What does not see the name of a state is found where it was. -/
theorem Quest.findSome?_withNewName {β : Type} {find? : State → Option β}
    (hName : ∀ state name, find? { state with name } = find? state) (quest : Quest) :
    (quest.withNewName old new).states.findSome? find? = quest.states.findSome? find? := by
  rw [withNewName]
  induction quest.states with
  | nil => rfl
  | cons state states ih =>
      rw [replaceFirst, List.findSome?_cons]
      split
      · rw [List.singleton_append, List.findSome?_cons, hName]
      · rw [List.findSome?_cons, ih]

/-- The new name is written before anything is redirected, and no fault of a renaming depends on
it. -/
theorem Quest.renameFault?_withNewName (quest : Quest) :
    (quest.withNewName old new).renameFault? schema old new = quest.renameFault? schema old new := by
  rw [renameFault?, findSome?_withNewName fun _ _ => rfl]
  rfl

/-- The name of a state is part of no call, so calls can be written before and after it has
changed. -/
theorem Quest.callFault?_withNewName (quest : Quest) :
    (quest.withNewName old new).callFault? schema = quest.callFault? schema := by
  rw [callFault?_eq, callFault?_eq, findSome?_withNewName fun _ _ => rfl]
  rfl

/-- A renaming that does something writes the name and then redirects. -/
theorem Quest.renameState_eq_redirect {quest quest' : Quest} {state : State} (hOther : new ≠ old)
    (hRename : quest.renameState schema old new = .ok (state, quest')) :
    quest' = (quest.withNewName old new).redirect schema old new := by
  unfold renameState at hRename
  split at hRename
  · cases hRename
  rw [if_neg hOther] at hRename
  split at hRename
  · cases hRename
  cases hRename
  rfl

/-- How a state is renamed. Where it is stopped, the state has its new name already. -/
theorem InPlace.renameState_ends (schema : Schema) (old new : String) (quest : Quest) :
    Ends quest (quest.renameState schema old new)
      (if new = old then none else quest.renameFault? schema old new)
      (Quest.HalfRedirected schema old new (quest.withNewName old new))
      ((renameState schema old new).run quest) := by
  rw [renameState, EStateM.run_bind, run_requireState, Quest.renameState]
  cases quest.state? old with
  | none => exact .refused rfl
  | some state =>
      dsimp only
      by_cases hSame : new = old
      · rw [if_pos hSame, if_pos hSame, if_pos hSame]
        exact .done rfl rfl
      · rw [if_neg hSame, if_neg hSame, if_neg hSame, EStateM.run_bind, run_requireFree]
        by_cases hTaken : (quest.state? new).isSome
        · rw [if_pos hTaken, if_pos hTaken]
          exact .refused rfl
        · rw [if_neg hTaken, if_neg hTaken, ← quest.renameFault?_withNewName]
          dsimp only
          rw [EStateM.run_bind]
          have hRuns := redirectAll_runs schema old new
            (({ state with name := new } : State).redirect schema old new)
          cases hFault : (quest.withNewName old new).renameFault? schema old new with
          | none =>
              change Ends _ _ _ _ (EStateM.run _ (quest.withNewName old new))
              rw [hRuns.ok hFault]
              exact .done rfl rfl
          | some error =>
              obtain ⟨left, hRun, hLeft⟩ := hRuns.error hFault
              change Ends _ _ _ _ (EStateM.run _ (quest.withNewName old new))
              rw [hRun]
              exact .stopped rfl rfl hLeft

end QuestScript

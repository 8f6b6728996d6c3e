import QuestScript.Proofs.Quest.Redirecting
/-!
What every edit in place comes to. It is refused and nothing happens, or it does what it does as a
whole, or it is stopped at a text that cannot be made; then the names of the states are those that they
were to have, and either some call could not be written from the beginning, or there is one now, and
there would be one if the edit had been done.
-/

namespace QuestScript

open InPlace (Ends)

/-- What an edit in place comes to, beside what the edit does as a whole. -/
inductive Edit.Outcome (schema : Schema) (quest : Quest) (edit : Edit) :
    EStateM.Result EditError Quest Edited → Prop where
  | refused {error : EditError} (hApply : edit.apply schema quest = .error error) :
      Outcome schema quest edit (.error error quest)
  | done {edited : Edited} {quest' : Quest}
      (hApply : edit.apply schema quest = .ok (edited, quest')) :
      Outcome schema quest edit (.ok edited quest')
  | stopped {edited : Edited} {quest' left : Quest} {error : EditError}
      (hApply : edit.apply schema quest = .ok (edited, quest'))
      (hNames : left.stateNames = quest'.stateNames)
      (hUnwritable : Unwritable (Quest.callFault? schema) quest quest' left) :
      Outcome schema quest edit (.error error left)

variable {schema : Schema} {quest : Quest}

/-! ### Blocks -/

/-- A block that an edit was to make, and what is left where it stopped: both have something in them
that cannot be written. -/
structure State.Stopped (schema : Schema) (finish left : State) : Prop where
  name : left.name = finish.name
  finish : (finish.fault? schema).isSome
  left : (left.fault? schema).isSome

/-- Two blocks of one name leave the quest with the same names of states. -/
theorem Quest.setBlock_stateNames_eq {block block' : State} (hName : block.name = block'.name)
    (ref : BlockRef) : (quest.setBlock ref block).stateNames = (quest.setBlock ref block').stateNames := by
  cases ref with
  | main => rfl
  | state index =>
      simp only [setBlock]
      split
      · simp only [stateNames, List.map_set, hName]
      · rfl

/-- A block that cannot be written makes a quest that cannot be, where it is put. -/
theorem Quest.setBlock_callFault? {ref : BlockRef} {found block : State}
    (hFound : quest.block? ref = some found) (hBlock : (block.fault? schema).isSome) :
    ((quest.setBlock ref block).callFault? schema).isSome := by
  rw [callFault?_isSome]
  cases ref with
  | main =>
      rw [List.findSome?_isSome_iff]
      exact Or.inl ⟨block, List.mem_singleton_self block, hBlock⟩
  | state index =>
      obtain ⟨place, hPlace, hState⟩ := Option.bind_eq_some_iff.1 hFound
      obtain ⟨hLess, -⟩ := List.getElem?_eq_some_iff.1 hState
      rw [setBlock, hPlace, List.findSome?_isSome_iff, List.findSome?_isSome_iff]
      exact Or.inr ⟨block, List.mem_set hLess block, hBlock⟩

/-- A block with an action that cannot be written cannot be written either. -/
theorem State.setAction_fault? {state : State} {index : Int} {found action : Action}
    (hFound : item? state.actions index = some found) (hAction : (action.fault? schema).isSome) :
    (State.fault? schema { state with actions := setItem state.actions index action }).isSome := by
  obtain ⟨place, hPlace, hAt⟩ := Option.bind_eq_some_iff.1 hFound
  obtain ⟨hLess, -⟩ := List.getElem?_eq_some_iff.1 hAt
  rw [State.fault?_isSome, setItem, hPlace, List.findSome?_isSome_iff]
  exact Or.inl ⟨action, List.mem_set hLess action, hAction⟩

theorem State.setRule_fault? {state : State} {index : Int} {found rule : Rule}
    (hFound : item? state.rules index = some found) (hRule : (rule.fault? schema).isSome) :
    (State.fault? schema { state with rules := setItem state.rules index rule }).isSome := by
  obtain ⟨place, hPlace, hAt⟩ := Option.bind_eq_some_iff.1 hFound
  obtain ⟨hLess, -⟩ := List.getElem?_eq_some_iff.1 hAt
  rw [State.fault?_isSome, setItem, hPlace, List.findSome?_isSome_iff, List.findSome?_isSome_iff]
  exact Or.inr ⟨rule, List.mem_set hLess rule, hRule⟩

/-- The action that was found and the one that came in its place. -/
theorem State.exists_of_editAction {state finish : State} {index : Int}
    {change : Action → Except EditError Action} {action : Action}
    (hEdit : state.editAction index change = .ok (action, finish)) :
    ∃ found, item? state.actions index = some found ∧ change found = .ok action ∧
      finish = { state with actions := setItem state.actions index action } := by
  obtain ⟨place, found, hPlace, hAt, hChange, rfl⟩ := State.editAction_eq_ok hEdit
  refine ⟨found, ?_, hChange, ?_⟩
  · rw [item?, hPlace, Option.bind_some, hAt]
  · rw [setItem, hPlace]

/-- An edited rule was a rule of the block before, found at the index. -/
theorem State.exists_of_editRule {state finish : State} {index : Int}
    {change : Rule → Except EditError Rule} {rule : Rule}
    (hEdit : state.editRule index change = .ok (rule, finish)) :
    ∃ found, item? state.rules index = some found ∧ change found = .ok rule ∧
      finish = { state with rules := setItem state.rules index rule } := by
  obtain ⟨place, found, hPlace, hAt, hChange, rfl⟩ := State.editRule_eq_ok hEdit
  refine ⟨found, ?_, hChange, ?_⟩
  · rw [item?, hPlace, Option.bind_some, hAt]
  · rw [setItem, hPlace]

/-! ### Edits -/

namespace Edit

variable {edit : Edit} {α : Type} {tag : α → Edited}

/-- The outcome of an edit from how the operation ends that it is. -/
theorem outcome_of_ends {operation : InPlace Quest α} {change : Except EditError (α × Quest)}
    {fault? : Option EditError} {Left : Quest → Prop}
    (hEnds : Ends quest change fault? Left (operation.run quest))
    (hInPlace : edit.inPlace schema = tag <$> operation)
    (hApply : edit.apply schema quest = tagged tag change)
    (hStopped : ∀ result quest' left error, change = .ok (result, quest') →
      fault? = some error → Left left →
      left.stateNames = quest'.stateNames ∧
        Unwritable (Quest.callFault? schema) quest quest' left) :
    edit.Outcome schema quest ((edit.inPlace schema).run quest) := by
  rw [hInPlace, ← bind_pure_comp, EStateM.run_bind]
  generalize operation.run quest = ended at hEnds ⊢
  cases hEnds with
  | refused hChange => exact .refused (by rw [hApply, hChange]; rfl)
  | done hChange => exact .done (by rw [hApply, hChange]; rfl)
  | stopped hChange hFault hLeft =>
      obtain ⟨hNames, hUnwritable⟩ := hStopped _ _ _ _ hChange hFault hLeft
      exact .stopped (by rw [hApply, hChange]; rfl) hNames hUnwritable

/-- The outcome of an edit that nothing stops. -/
theorem outcome_of_commit {operation : InPlace Quest α} {change : Except EditError (α × Quest)}
    (hRun : operation.run quest = InPlace.commit quest change)
    (hInPlace : edit.inPlace schema = tag <$> operation)
    (hApply : edit.apply schema quest = tagged tag change) :
    edit.Outcome schema quest ((edit.inPlace schema).run quest) := by
  refine outcome_of_ends (hRun ▸ Ends.commit quest change) hInPlace hApply ?_
  exact fun _ _ _ _ _ _ hNever => hNever.elim

/-- The outcome of an edit of a block. -/
theorem outcome_of_onBlock {operation : InPlace State α}
    {change : State → Except EditError (α × State)} {fault? : State → Option EditError}
    {Left : State → State → Prop} {ref : BlockRef} {part : BlockPart}
    (hEnds : ∀ state, Ends state (change state) (fault? state) (Left state) (operation.run state))
    (hInPlace : edit.inPlace schema = tag <$> InPlace.onBlock ref part operation)
    (hApply : edit.apply schema quest = tagged tag (quest.editBlock ref part change))
    (hStopped : ∀ state result finish left error, change state = .ok (result, finish) →
      fault? state = some error → Left state left → finish.Stopped schema left) :
    edit.Outcome schema quest ((edit.inPlace schema).run quest) := by
  refine outcome_of_ends (InPlace.onBlock_ends hEnds ref part quest) hInPlace hApply ?_
  rintro result quest' left error hChange hFault ⟨block, block', hBlock, hLeft, rfl⟩
  obtain ⟨_, finish, hFound, hFinish, rfl⟩ := Quest.editBlock_eq_ok hChange
  obtain rfl := Option.some.inj (hBlock.symm.trans hFound)
  rw [hBlock, Option.bind_some] at hFault
  have hState := hStopped _ _ _ _ _ hFinish hFault hLeft
  exact ⟨Quest.setBlock_stateNames_eq hState.name ref,
    Or.inr ⟨Quest.setBlock_callFault? hBlock hState.finish,
      Quest.setBlock_callFault? hBlock hState.left⟩⟩

/-- The outcome of an edit of an action of a block. -/
theorem outcome_of_onAction {operation : InPlace Action Action}
    {change : Action → Except EditError Action} {fault? : Action → Option EditError}
    {Left : Action → Action → Prop} {ref : BlockRef} {index : Int}
    (hEnds : ∀ action, Ends action ((change action).map fun action => (action, action))
      (fault? action) (Left action) (operation.run action))
    (hInPlace : edit.inPlace schema =
      .action <$> InPlace.onBlock ref .actions (.onAction index operation))
    (hApply : edit.apply schema quest =
      tagged .action (quest.editBlock ref .actions fun state => state.editAction index change))
    (hStopped : ∀ action finish left error, change action = .ok finish →
      fault? action = some error → Left action left →
      (finish.fault? schema).isSome ∧ (left.fault? schema).isSome) :
    edit.Outcome schema quest ((edit.inPlace schema).run quest) := by
  refine outcome_of_onBlock (InPlace.onAction_ends hEnds index) hInPlace hApply ?_
  rintro state action finish _ error hChange hFault ⟨found, action', hFound, hLeft, rfl⟩
  obtain ⟨other, hOther, hFinish, rfl⟩ := State.exists_of_editAction hChange
  obtain rfl := Option.some.inj (hFound.symm.trans hOther)
  rw [hFound, Option.bind_some] at hFault
  obtain ⟨hAction, hAction'⟩ := hStopped _ _ _ _ hFinish hFault hLeft
  exact ⟨rfl, State.setAction_fault? hFound hAction, State.setAction_fault? hFound hAction'⟩

/-- The outcome of an edit of a rule of a block. -/
theorem outcome_of_onRule {operation : InPlace Rule Rule}
    {change : Rule → Except EditError Rule} {fault? : Rule → Option EditError}
    {Left : Rule → Rule → Prop} {ref : BlockRef} {index : Int}
    (hEnds : ∀ rule, Ends rule ((change rule).map fun rule => (rule, rule))
      (fault? rule) (Left rule) (operation.run rule))
    (hInPlace : edit.inPlace schema =
      .rule <$> InPlace.onBlock ref .rules (.onRule index operation))
    (hApply : edit.apply schema quest =
      tagged .rule (quest.editBlock ref .rules fun state => state.editRule index change))
    (hStopped : ∀ rule finish left error, change rule = .ok finish →
      fault? rule = some error → Left rule left →
      (finish.fault? schema).isSome ∧ (left.fault? schema).isSome) :
    edit.Outcome schema quest ((edit.inPlace schema).run quest) := by
  refine outcome_of_onBlock (InPlace.onRule_ends hEnds index) hInPlace hApply ?_
  rintro state rule finish _ error hChange hFault ⟨found, rule', hFound, hLeft, rfl⟩
  obtain ⟨other, hOther, hFinish, rfl⟩ := State.exists_of_editRule hChange
  obtain rfl := Option.some.inj (hFound.symm.trans hOther)
  rw [hFound, Option.bind_some] at hFault
  obtain ⟨hRule, hRule'⟩ := hStopped _ _ _ _ hFinish hFault hLeft
  exact ⟨rfl, State.setRule_fault? hFound hRule, State.setRule_fault? hFound hRule'⟩

/-- A fault that came from the text of what an edit made. -/
theorem isSome_of_unwritten {fault? : Option Integer.Oversize} {error : EditError}
    (hFault : fault?.map EditError.unwritten = some error) : fault?.isSome := by
  rw [← Option.isSome_map, hFault]
  rfl

/-- What every edit in place comes to. -/
theorem run_outcome (schema : Schema) (quest : Quest) (edit : Edit) :
    edit.Outcome schema quest ((edit.inPlace schema).run quest) := by
  cases edit with
  | addState name => exact outcome_of_commit (InPlace.run_addState name quest) rfl rfl
  | duplicateState name newName =>
      exact outcome_of_commit (InPlace.run_duplicateState name newName quest) rfl rfl
  | removeState name => exact outcome_of_commit (InPlace.run_removeState name quest) rfl rfl
  | renameState old new =>
      refine outcome_of_ends (InPlace.renameState_ends schema old new quest) rfl rfl ?_
      intro state quest' left error hRename hFault hLeft
      have hOther : new ≠ old := by
        intro hSame
        rw [if_pos hSame] at hFault
        cases hFault
      obtain rfl := Quest.renameState_eq_redirect hOther hRename
      refine ⟨hLeft.names.trans ?_, hLeft.unwritable.of_part ?_ id id⟩
      · simp only [Quest.redirect, Quest.stateNames, List.map_map]
        rfl
      · rw [Quest.callFault?_withNewName]
        exact id
  | addAction ref type =>
      refine outcome_of_onBlock (fun state => Ends.commit state (.ok _)) rfl rfl ?_
      exact fun _ _ _ _ _ _ _ hNever => hNever.elim
  | addRule ref type goto =>
      refine outcome_of_onBlock (fun state => Ends.commit state (.ok _)) rfl rfl ?_
      exact fun _ _ _ _ _ _ _ hNever => hNever.elim
  | changeActionType ref index type =>
      refine outcome_of_onAction (InPlace.changeActionType_ends schema type) rfl rfl ?_
      exact fun _ _ _ _ _ _ hNever => hNever.elim
  | changeRuleType ref index type =>
      refine outcome_of_onRule (InPlace.changeRuleType_ends schema type) rfl rfl ?_
      exact fun _ _ _ _ _ _ hNever => hNever.elim
  | setActionParam ref call index value =>
      refine outcome_of_onAction (InPlace.setActionParam_ends schema index value) rfl rfl ?_
      rintro action finish _ error hFinish hFault ⟨changed, hChanged, rfl⟩
      rw [hFinish] at hFault hChanged
      cases hChanged
      have hFinished := isSome_of_unwritten hFault
      exact ⟨hFinished, hFinished⟩
  | setRuleParam ref call index value =>
      refine outcome_of_onRule (InPlace.setRuleParam_ends schema index value) rfl rfl ?_
      rintro rule finish _ error hFinish hFault ⟨changed, hChanged, rfl⟩
      rw [hFinish] at hFault hChanged
      cases hChanged
      have hFinished := isSome_of_unwritten hFault
      exact ⟨hFinished, hFinished⟩
  | setRuleGoto ref call goto =>
      refine outcome_of_onRule (InPlace.setRuleGoto_ends schema goto) rfl rfl ?_
      rintro rule _ _ error ⟨⟩ hFault rfl
      have hRule := isSome_of_unwritten hFault
      exact ⟨hRule, hRule⟩
  | applyTemplate ref template =>
      refine outcome_of_onBlock (InPlace.applyTemplate_ends schema template) rfl rfl ?_
      rintro state _ _ left error ⟨⟩ hFault hLeft
      have hFinish := isSome_of_unwritten hFault
      have hName : left.uncached.name = _ := congrArg State.name hLeft
      refine ⟨hName, hFinish, ?_⟩
      rw [State.fault?_eq_of_uncached hLeft]
      exact hFinish

end Edit

end QuestScript

import QuestScript.Proofs.Except
import QuestScript.Proofs.Quest.FreeNames
import QuestScript.Proofs.Quest.Reading
/-!
What an edit that is carried out does to a quest. Four edits are about the list of states: one is
added at the end, copied, removed or renamed. All others change one block, and there one call that is
written anew, or the whole content. What every edit keeps is read off these cases.
-/

namespace QuestScript

variable {schema : Schema}

/-! ### Blocks -/

/-- What an edit of a block does to it: calls that come in are written anew, and so is a template. -/
inductive State.Changed (schema : Schema) (block : State) : State → Prop where
  | addAction (action : Action) :
      Changed schema block { block with actions := block.actions ++ [action.refresh schema] }
  | addRule (rule : Rule) :
      Changed schema block { block with rules := block.rules ++ [rule.refresh schema] }
  | setAction (place : Nat) (action : Action) :
      Changed schema block { block with actions := block.actions.set place (action.refresh schema) }
  | setRule (place : Nat) (rule : Rule) :
      Changed schema block { block with rules := block.rules.set place (rule.refresh schema) }
  | applyTemplate (template : Template) : Changed schema block (block.applyTemplate schema template)

namespace State

variable {block block' : State}

/-- An action that was edited stands at the place of its index, and the other actions stay. -/
theorem editAction_eq_ok {index : Int} {change : Action → Except EditError Action} {action : Action}
    (hEdit : block.editAction index change = .ok (action, block')) :
    ∃ place found, place? block.actions.length index = some place ∧
      block.actions[place]? = some found ∧ change found = .ok action ∧
      block' = { block with actions := block.actions.set place action } := by
  unfold editAction at hEdit
  split at hEdit
  · cases hEdit
  next place hPlace =>
  split at hEdit
  · cases hEdit
  next found hFound =>
  split at hEdit
  · cases hEdit
  next changed hChanged =>
  cases hEdit
  exact ⟨place, found, hPlace, hFound, hChanged, rfl⟩

/-- A rule that was edited stands at the place of its index, and the other rules stay. -/
theorem editRule_eq_ok {index : Int} {change : Rule → Except EditError Rule} {rule : Rule}
    (hEdit : block.editRule index change = .ok (rule, block')) :
    ∃ place found, place? block.rules.length index = some place ∧
      block.rules[place]? = some found ∧ change found = .ok rule ∧
      block' = { block with rules := block.rules.set place rule } := by
  unfold editRule at hEdit
  split at hEdit
  · cases hEdit
  next place hPlace =>
  split at hEdit
  · cases hEdit
  next found hFound =>
  split at hEdit
  · cases hEdit
  next changed hChanged =>
  cases hEdit
  exact ⟨place, found, hPlace, hFound, hChanged, rfl⟩

/-- Where the change ends in a refresh, the block has changed by one action that is written anew.
-/
theorem editAction_changed {index : Int} {change : Action → Except EditError Action}
    {action : Action}
    (hChange : ∀ found action, change found = .ok action →
      ∃ bare : Action, action = bare.refresh schema)
    (hEdit : block.editAction index change = .ok (action, block')) : block.Changed schema block' := by
  obtain ⟨place, found, -, -, hChanged, rfl⟩ := editAction_eq_ok hEdit
  obtain ⟨bare, rfl⟩ := hChange found action hChanged
  exact .setAction place bare

/-- Where the change ends in a refresh, the block has changed by one rule that is written anew. -/
theorem editRule_changed {index : Int} {change : Rule → Except EditError Rule} {rule : Rule}
    (hChange : ∀ found rule, change found = .ok rule → ∃ bare : Rule, rule = bare.refresh schema)
    (hEdit : block.editRule index change = .ok (rule, block')) : block.Changed schema block' := by
  obtain ⟨place, found, -, -, hChanged, rfl⟩ := editRule_eq_ok hEdit
  obtain ⟨bare, rfl⟩ := hChange found rule hChanged
  exact .setRule place bare

end State

theorem Action.setParam_refreshed {action action' : Action} {index : Int} {value : EditValue}
    (hSet : action.setParam schema index value = .ok action') :
    ∃ bare : Action, action' = bare.refresh schema := by
  obtain ⟨params, -, rfl⟩ := exists_of_map_eq_ok hSet
  exact ⟨_, rfl⟩

theorem Rule.setParam_refreshed {rule rule' : Rule} {index : Int} {value : EditValue}
    (hSet : rule.setParam schema index value = .ok rule') :
    ∃ bare : Rule, rule' = bare.refresh schema := by
  obtain ⟨params, -, rfl⟩ := exists_of_map_eq_ok hSet
  exact ⟨_, rfl⟩

/-! ### States -/

/-- Where an item passes the test, the items before the first one that does stay, and so do those
after it. -/
theorem replaceFirst_of_find? {α : Type} {test : α → Bool} {items : List α} {item : α}
    (hFind : items.find? test = some item) (instead : α → List α) :
    ∃ before after, items = before ++ item :: after ∧
      replaceFirst test instead items = before ++ (instead item ++ after) := by
  induction items with
  | nil => cases hFind
  | cons first rest ih =>
      rw [replaceFirst]
      rw [List.find?_cons] at hFind
      split at hFind
      · next hTest =>
          cases hFind
          exact ⟨[], rest, rfl, by rw [if_pos hTest]; rfl⟩
      · next hTest =>
          obtain ⟨before, after, rfl, hReplaced⟩ := ih hFind
          refine ⟨first :: before, after, rfl, ?_⟩
          rw [if_neg (by simp [hTest]), hReplaced]
          rfl

/-- The block whose content an edit is about; none for the edits of the list of states. -/
def Edit.block? : Edit → Option BlockRef
  | .addState _ => none
  | .duplicateState _ _ => none
  | .removeState _ => none
  | .renameState _ _ => none
  | .addAction block _ => some block
  | .addRule block _ _ => some block
  | .changeActionType block _ _ => some block
  | .changeRuleType block _ _ => some block
  | .setActionParam block _ _ _ => some block
  | .setRuleParam block _ _ _ => some block
  | .setRuleGoto block _ _ => some block
  | .applyTemplate block _ => some block

/-- What an edit that is carried out does to a quest. Names that come in are free. -/
inductive Quest.Changed (schema : Schema) (quest : Quest) : Edit → Quest → Prop where
  | addState {name? : Option String} {name : String} (hFree : name ∉ quest.stateNames) :
      Changed schema quest (.addState name?)
        { quest with states := quest.states ++ [.named name] }
  | duplicateState {newName? : Option String} {newName : String} {before after : List State}
      {source : State} (hStates : quest.states = before ++ source :: after)
      (hFree : newName ∉ quest.stateNames) :
      Changed schema quest (.duplicateState source.name newName?)
        { quest with states := before ++ source :: { source with name := newName } :: after }
  | removeState {before after : List State} {state : State}
      (hStates : quest.states = before ++ state :: after) :
      Changed schema quest (.removeState state.name) { quest with states := before ++ after }
  | sameName {name : String} : Changed schema quest (.renameState name name) quest
  | renameState {new : String} {before after : List State} {state : State}
      (hStates : quest.states = before ++ state :: after) (hFree : new ∉ quest.stateNames) :
      Changed schema quest (.renameState state.name new)
        { quest with
          states := (before ++ { state with name := new } :: after).map
            (State.redirect schema state.name new)
          main := quest.main.map (State.redirect schema state.name new)
          random := quest.random.map (RandomBlock.redirect state.name new) }
  | block {edit : Edit} {ref : BlockRef} {block block' : State} (hRef : edit.block? = some ref)
      (hBlock : quest.block? ref = some block) (hChanged : block.Changed schema block') :
      Changed schema quest edit (quest.setBlock ref block')

namespace Quest

variable {quest quest' : Quest} {state : State}

/-- A name that is given and checked, or made up, is free. -/
theorem getD_newStateName_notMem {name : Option String} {base : String}
    (hName : ¬(name.isSome && (quest.state? (name.getD (quest.newStateName base))).isSome) = true) :
    name.getD (quest.newStateName base) ∉ quest.stateNames := by
  cases name with
  | none => exact quest.newStateName_notMem base
  | some name => simpa [state?_isSome] using hName

theorem state?_name {name : String} (hState : quest.state? name = some state) :
    state.name = name := by
  simpa using List.find?_some hState

/-- A state that is added is empty, comes last, and has a free name. -/
theorem addState_changed {name : Option String}
    (hEdit : quest.addState name = .ok (state, quest')) :
    quest.Changed schema (.addState name) quest' := by
  unfold addState at hEdit
  dsimp only at hEdit
  split at hEdit
  · cases hEdit
  next hFree =>
  cases hEdit
  exact .addState (getD_newStateName_notMem hFree)

/-- A copy that is made has a free name and stands right after the first state of the name. -/
theorem duplicateState_eq_ok {name : String} {newName : Option String} {copy : State}
    (hEdit : quest.duplicateState name newName = .ok (copy, quest')) :
    ∃ before source after, quest.states = before ++ source :: after ∧ source.name = name ∧
      copy = { source with name := copy.name } ∧ copy.name ∉ quest.stateNames ∧
      quest' = { quest with states := before ++ source :: copy :: after } := by
  unfold duplicateState at hEdit
  split at hEdit
  · cases hEdit
  next source hSource =>
  dsimp only at hEdit
  split at hEdit
  · cases hEdit
  next hFree =>
  cases hEdit
  obtain ⟨before, after, hStates, hReplaced⟩ := replaceFirst_of_find? hSource fun state =>
    [state, { source with name := newName.getD (quest.newStateName (name ++ "Copy")) }]
  exact ⟨before, source, after, hStates, state?_name hSource, rfl, getD_newStateName_notMem hFree,
    by rw [hReplaced]; rfl⟩

/-- A duplicate stands behind its original with the same content. Only the name differs, and it
was free. -/
theorem duplicateState_changed {name : String} {newName : Option String}
    (hEdit : quest.duplicateState name newName = .ok (state, quest')) :
    quest.Changed schema (.duplicateState name newName) quest' := by
  obtain ⟨before, source, after, hStates, rfl, hCopy, hFree, rfl⟩ := duplicateState_eq_ok hEdit
  rw [hCopy]
  exact .duplicateState hStates hFree

/-- A state that is removed leaves the others in their order. -/
theorem removeState_changed {name : String}
    (hEdit : quest.removeState name = .ok (state, quest')) :
    quest.Changed schema (.removeState name) quest' := by
  unfold removeState at hEdit
  split at hEdit
  · cases hEdit
  next hState =>
  cases hEdit
  obtain ⟨before, after, hStates, hReplaced⟩ := replaceFirst_of_find? hState fun _ => []
  obtain rfl := state?_name hState
  rw [hReplaced]
  exact .removeState hStates

/-- A renaming changes the name of one state and the targets that named it, and nothing when the
names agree. -/
theorem renameState_changed {old new : String}
    (hEdit : quest.renameState schema old new = .ok (state, quest')) :
    quest.Changed schema (.renameState old new) quest' := by
  unfold renameState at hEdit
  split at hEdit
  · cases hEdit
  next found hFound =>
  split at hEdit
  · next hSame =>
      cases hEdit
      rw [hSame]
      exact .sameName
  split at hEdit
  · cases hEdit
  next hFree =>
  cases hEdit
  rw [state?_isSome] at hFree
  obtain ⟨before, after, hStates, hReplaced⟩ := replaceFirst_of_find? hFound
    fun state => [{ state with name := new }]
  obtain rfl := state?_name hFound
  rw [hReplaced]
  exact .renameState hStates hFree

/-- An edit of a block is the change of one block of the quest, under the name it has. -/
theorem editBlock_eq_ok {α : Type} {ref : BlockRef} {part : BlockPart}
    {change : State → Except EditError (α × State)} {result : α}
    (hEdit : quest.editBlock ref part change = .ok (result, quest')) :
    ∃ block block', quest.block? ref = some block ∧ change block = .ok (result, block') ∧
      quest' = quest.setBlock ref block' := by
  unfold editBlock at hEdit
  split at hEdit
  · cases hEdit
  next block hBlock =>
  split at hEdit
  · cases hEdit
  next result block' hChanged =>
  cases hEdit
  exact ⟨block, block', hBlock, hChanged, rfl⟩

end Quest

/-! ### Edits -/

theorem tagged_eq_ok {α : Type} {tag : α → Edited} {attempt : Except EditError (α × Quest)}
    {edited : Edited} {quest : Quest} (hEdit : tagged tag attempt = .ok (edited, quest)) :
    ∃ result, attempt = .ok (result, quest) ∧ edited = tag result := by
  cases attempt with
  | error error => cases hEdit
  | ok pair =>
      cases hEdit
      exact ⟨_, rfl, rfl⟩

/-- An edit of a block whose change is one of those that edits make. -/
theorem Edit.changed_of_editBlock {α : Type} {edit : Edit} {ref : BlockRef} {part : BlockPart}
    {change : State → Except EditError (α × State)} {tag : α → Edited} {edited : Edited}
    {quest quest' : Quest} (hRef : edit.block? = some ref)
    (hChange : ∀ block result block', change block = .ok (result, block') →
      block.Changed schema block')
    (hEdit : tagged tag (quest.editBlock ref part change) = .ok (edited, quest')) :
    quest.Changed schema edit quest' := by
  obtain ⟨result, hDone, -⟩ := tagged_eq_ok hEdit
  obtain ⟨block, block', hBlock, hChanged, rfl⟩ := Quest.editBlock_eq_ok hDone
  exact .block hRef hBlock (hChange block result block' hChanged)

/-- Every edit that is carried out changes the quest as described for it. One case for each edit.
-/
theorem Edit.apply_changed {quest quest' : Quest} {edit : Edit} {edited : Edited}
    (hEdit : edit.apply schema quest = .ok (edited, quest')) : quest.Changed schema edit quest' := by
  cases edit with
  | addState name =>
      obtain ⟨state, hAdd, -⟩ := tagged_eq_ok hEdit
      exact Quest.addState_changed hAdd
  | duplicateState name newName =>
      obtain ⟨copy, hDuplicate, -⟩ := tagged_eq_ok hEdit
      exact Quest.duplicateState_changed hDuplicate
  | removeState name =>
      obtain ⟨state, hRemove, -⟩ := tagged_eq_ok hEdit
      exact Quest.removeState_changed hRemove
  | renameState old new =>
      obtain ⟨state, hRename, -⟩ := tagged_eq_ok hEdit
      exact Quest.renameState_changed hRename
  | addAction ref type =>
      refine changed_of_editBlock rfl (fun block action block' hChange => ?_) hEdit
      cases hChange
      exact .addAction _
  | addRule ref type goto =>
      refine changed_of_editBlock rfl (fun block rule block' hChange => ?_) hEdit
      cases hChange
      exact .addRule _
  | changeActionType ref index type =>
      refine changed_of_editBlock rfl (fun block action block' => State.editAction_changed ?_) hEdit
      rintro found _ ⟨⟩
      exact ⟨_, rfl⟩
  | changeRuleType ref index type =>
      refine changed_of_editBlock rfl (fun block rule block' => State.editRule_changed ?_) hEdit
      rintro found _ ⟨⟩
      exact ⟨_, rfl⟩
  | setActionParam ref index param value =>
      refine changed_of_editBlock rfl (fun block action block' => State.editAction_changed ?_) hEdit
      exact fun found action => Action.setParam_refreshed
  | setRuleParam ref index param value =>
      refine changed_of_editBlock rfl (fun block rule block' => State.editRule_changed ?_) hEdit
      exact fun found rule => Rule.setParam_refreshed
  | setRuleGoto ref index goto =>
      refine changed_of_editBlock rfl (fun block rule block' => State.editRule_changed ?_) hEdit
      rintro found _ ⟨⟩
      exact ⟨_, rfl⟩
  | applyTemplate ref template =>
      refine changed_of_editBlock rfl (fun block state block' hChange => ?_) hEdit
      cases hChange
      exact .applyTemplate template

end QuestScript

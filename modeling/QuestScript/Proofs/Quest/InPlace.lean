import QuestScript.Quest.InPlace
import QuestScript.Proofs.Quest.Edits
import QuestScript.Proofs.Quest.Refresh
/-!
How edits end that are carried out in place. Look-ups, checks and conversions come before the first
write, so an edit that one of them refuses leaves everything as it was. What comes after a write is
the making of texts, and an integer that is not converted stops an edit there half-way.

Each edit is compared with what it does as a whole: it is refused with the same error, it does the
same, or it is stopped.
-/

namespace QuestScript

/-! ### Places -/

/-- An index is a place from the front, or from the end when it is negative. -/
theorem place?_eq_some_iff {length place : Nat} {index : Int} :
    place? length index = some place ↔
      place < length ∧ ((place : Int) = index ∨ (place : Int) = length + index) := by
  unfold place?
  split <;> split <;> simp <;> omega

/-- The indexes that have a place are those from minus the length up to the length. -/
theorem place?_isSome {length : Nat} {index : Int} :
    (place? length index).isSome ↔ -(length : Int) ≤ index ∧ index < length := by
  unfold place?
  split <;> split <;> simp <;> omega

namespace InPlace

open Along (Runs)

variable {σ τ α : Type}

/-- How an edit in place ends. It is refused like the function of the edit as a whole, with nothing
written; it does what the function does; or a fault stops it and leaves something half-done. -/
inductive Ends (start : σ) (outcome : Except EditError (α × σ)) (fault? : Option EditError)
    (Left : σ → Prop) : EStateM.Result EditError σ α → Prop where
  | refused {error : EditError} (hOutcome : outcome = .error error) :
      Ends start outcome fault? Left (.error error start)
  | done {result : α} {finish : σ} (hOutcome : outcome = .ok (result, finish))
      (hFault : fault? = none) : Ends start outcome fault? Left (.ok result finish)
  | stopped {result : α} {finish left : σ} {error : EditError}
      (hOutcome : outcome = .ok (result, finish)) (hFault : fault? = some error)
      (hLeft : Left left) : Ends start outcome fault? Left (.error error left)

/-- How an edit that nothing can stop half-way ends: with the new whole, or with an error and the
whole as it was. -/
def commit (start : σ) : Except EditError (α × σ) → EStateM.Result EditError σ α
  | .ok (result, finish) => .ok result finish
  | .error error => .error error start

/-- An edit that nothing can stop half-way leaves nothing half-done. -/
theorem Ends.commit (start : σ) (outcome : Except EditError (α × σ)) :
    Ends start outcome none (fun _ => False) (InPlace.commit start outcome) := by
  cases outcome with
  | error error => exact .refused rfl
  | ok done => exact .done rfl rfl

/-- What is known of an edit that was stopped may be weakened. -/
theorem Ends.mono {start : σ} {outcome : Except EditError (α × σ)} {fault? : Option EditError}
    {Left Left' : σ → Prop} {ended : EStateM.Result EditError σ α}
    (hEnds : Ends start outcome fault? Left ended) (hLeft : ∀ left, Left left → Left' left) :
    Ends start outcome fault? Left' ended := by
  cases hEnds with
  | refused hOutcome => exact .refused hOutcome
  | done hOutcome hFault => exact .done hOutcome hFault
  | stopped hOutcome hFault hWhole => exact .stopped hOutcome hFault (hLeft _ hWhole)

/-- An edit ends well if it is not refused and nothing stops it. -/
theorem Ends.eq_ok_iff {start : σ} {outcome : Except EditError (α × σ)} {fault? : Option EditError}
    {Left : σ → Prop} {ended : EStateM.Result EditError σ α}
    (hEnds : Ends start outcome fault? Left ended) {result : α} {finish : σ} :
    ended = .ok result finish ↔ fault? = none ∧ outcome = .ok (result, finish) := by
  cases hEnds with
  | refused hOutcome => simp [hOutcome]
  | done hOutcome hFault => simp [hOutcome, hFault]
  | stopped hOutcome hFault hLeft => simp [hFault]

/-! ### States -/

theorem run_requireState (name : String) (quest : Quest) :
    (requireState name).run quest =
      match quest.state? name with
      | some state => .ok state quest
      | none => .error (.noState name) quest := by
  rw [requireState, EStateM.run_bind, EStateM.run_get]
  dsimp only
  cases quest.state? name <;> rfl

theorem run_requireFree (name : String) (quest : Quest) :
    (requireFree name).run quest =
      if (quest.state? name).isSome then .error (.stateExists name) quest else .ok () quest := by
  rw [requireFree, EStateM.run_bind, EStateM.run_get]
  dsimp only
  split <;> rfl

theorem run_nameFor (given : Option String) (base : String) (quest : Quest) :
    (nameFor given base).run quest =
      let name := given.getD (quest.newStateName base)
      if given.isSome && (quest.state? name).isSome then .error (.stateExists name) quest
      else .ok name quest := by
  cases given with
  | none => rfl
  | some name =>
      rw [nameFor, EStateM.run_bind, run_requireFree]
      dsimp only [Option.getD_some]
      cases (quest.state? name).isSome <;> rfl

/-- Adding a state in place commits the result as a whole. Nothing in it can be stopped half-way.
-/
theorem run_addState (name : Option String) (quest : Quest) :
    (addState name).run quest = commit quest (quest.addState name) := by
  rw [addState, EStateM.run_bind, run_nameFor, Quest.addState]
  generalize name.getD (quest.newStateName Quest.newStateBase) = name'
  dsimp only
  cases name.isSome && (quest.state? name').isSome <;> rfl

/-- Duplicating a state in place commits the result as a whole. -/
theorem run_duplicateState (name : String) (newName : Option String) (quest : Quest) :
    (duplicateState name newName).run quest = commit quest (quest.duplicateState name newName) := by
  rw [duplicateState, EStateM.run_bind, run_requireState, Quest.duplicateState]
  cases quest.state? name with
  | none => rfl
  | some source =>
      dsimp only
      rw [EStateM.run_bind, run_nameFor]
      generalize newName.getD (quest.newStateName (name ++ "Copy")) = newName'
      dsimp only
      cases newName.isSome && (quest.state? newName').isSome <;> rfl

/-- Removing a state in place commits the result as a whole. -/
theorem run_removeState (name : String) (quest : Quest) :
    (removeState name).run quest = commit quest (quest.removeState name) := by
  rw [removeState, EStateM.run_bind, run_requireState, Quest.removeState]
  cases quest.state? name <;> rfl

/-! ### Texts after a write -/

/-- Texts are made anew after a write like before one; only the error says that there was one. -/
theorem written_runs {refresh : EStateM Integer.Oversize σ Unit}
    {fault? : σ → Option Integer.Oversize} {change : σ → σ} {Left : σ → σ → Prop}
    (hRefresh : Runs refresh fault? (fun _ => ()) change Left) :
    Runs (written refresh) (fun whole => (fault? whole).map EditError.unwritten) (fun _ => ())
      change Left := hRefresh.adapt EditError.unwritten

/-- An edit that has written a part and makes its text anew to give it back. -/
theorem ends_written {refresh : EStateM Integer.Oversize σ Unit}
    {fault? : σ → Option Integer.Oversize} {change : σ → σ} {Left : σ → σ → Prop}
    (hRefresh : Runs refresh fault? (fun _ => ()) change Left) (start part : σ) :
    Ends start (.ok (change part, change part)) ((fault? part).map EditError.unwritten) (Left part)
      ((written refresh >>= fun _ => get : InPlace σ σ).run part) := by
  have hWritten := written_runs hRefresh
  cases hFault : (fault? part).map EditError.unwritten with
  | none =>
      rw [EStateM.run_bind, hWritten.ok hFault]
      exact .done rfl rfl
  | some error =>
      obtain ⟨left, hRun, hLeft⟩ := hWritten.error hFault
      rw [EStateM.run_bind, hRun]
      exact .stopped rfl rfl hLeft

/-! ### Calls -/

/-- The type of a slot is looked for only below the number of slots. A negative index below their
range is an error of the list. -/
theorem run_slotType? (slots : List Schema.Slot) (index : Int) (start : σ) :
    (slotType? slots index).run start =
      if index < slots.length then
        match item? slots index with
        | some slot => .ok (some slot.type) start
        | none => .error (EditError.noSlot.ofIndex index) start
      else .ok none start := by
  unfold slotType?
  split
  · cases item? slots index <;> rfl
  · rfl

/-- Nothing is written before the slot has been found, the value converted and the argument found. -/
theorem run_withParam (slots : List Schema.Slot) (params : List Param) (index : Int)
    (value : EditValue) (start : σ) :
    (withParam slots params index value).run start =
      match setParam slots params index value with
      | .ok params => .ok params start
      | .error error => .error error start := by
  rw [withParam, EStateM.run_bind, run_slotType?, setParam]
  by_cases hBelow : index < slots.length
  · simp only [if_pos hBelow]
    rw [item?]
    cases (place? slots.length index).bind fun place => slots[place]? with
    | none => rfl
    | some slot =>
        dsimp only [EditValue.typed]
        cases value.slotFault? slot.type with
        | some fault => rfl
        | none => cases place? params.length index <;> rfl
  · simp only [if_neg hBelow, EditValue.typed]
    cases place? params.length index <;> rfl

/-- How an argument of an action is written: the action is as it was if the slot, the value or the
index is refused, and has the argument without its text if that cannot be made. -/
theorem setActionParam_ends (schema : Schema) (index : Int) (value : EditValue) (action : Action) :
    Ends action ((action.setParam schema index value).map fun action => (action, action))
      ((action.setParam schema index value).toOption.bind fun changed =>
        (changed.fault? schema).map EditError.unwritten)
      (fun left => ∃ changed, action.setParam schema index value = .ok changed ∧
        left = { changed with rawText := action.rawText })
      ((setActionParam schema index value).run action) := by
  rw [setActionParam, EStateM.run_bind, EStateM.run_get]
  dsimp only
  rw [EStateM.run_bind, run_withParam, Action.setParam]
  cases setParam (schema.actionSlots action.type) action.params index value with
  | error error => exact .refused rfl
  | ok params =>
      have hEnds := ends_written (Refresh.action_runs schema) action { action with params }
      exact hEnds.mono fun left hLeft => ⟨_, rfl, hLeft⟩

/-- Setting a parameter of a rule is stopped by an integer that is too long, after the parameter
was written. The rule is left with the parameter and its old text. -/
theorem setRuleParam_ends (schema : Schema) (index : Int) (value : EditValue) (rule : Rule) :
    Ends rule ((rule.setParam schema index value).map fun rule => (rule, rule))
      ((rule.setParam schema index value).toOption.bind fun changed =>
        (changed.fault? schema).map EditError.unwritten)
      (fun left => ∃ changed, rule.setParam schema index value = .ok changed ∧
        left = { changed with rawText := rule.rawText })
      ((setRuleParam schema index value).run rule) := by
  rw [setRuleParam, EStateM.run_bind, EStateM.run_get]
  dsimp only
  rw [EStateM.run_bind, run_withParam, Rule.setParam]
  cases setParam (schema.ruleSlots rule.type) rule.params index value with
  | error error => exact .refused rfl
  | ok params =>
      have hEnds := ends_written (Refresh.rule_runs schema) rule { rule with params }
      exact hEnds.mono fun left hLeft => ⟨_, rfl, hLeft⟩

/-- A new type gives parameters with default values. Nothing in them is too long, so nothing stops
the edit. -/
theorem changeActionType_ends (schema : Schema) (type : String) (action : Action) :
    Ends action ((Except.ok (Action.fresh schema type)).map fun action => (action, action)) none
      (fun _ => False) ((changeActionType schema type).run action) := .done rfl rfl

/-- The same holds for the type of a rule, which keeps its target. -/
theorem changeRuleType_ends (schema : Schema) (type : String) (rule : Rule) :
    Ends rule ((Except.ok (rule.changeType schema type)).map fun rule => (rule, rule)) none
      (fun _ => False) ((changeRuleType schema type).run rule) := .done rfl rfl

/-- Setting a target can be stopped by an integer that the rule has already. The target stays
written, beside the old text. -/
theorem setRuleGoto_ends (schema : Schema) (goto : String) (rule : Rule) :
    Ends rule ((Except.ok (rule.setGoto schema goto)).map fun rule => (rule, rule))
      ((rule.fault? schema).map EditError.unwritten) (fun left => left = { rule with goto })
      ((setRuleGoto schema goto).run rule) :=
  ends_written (Refresh.rule_runs schema) rule { rule with goto }

/-- A template is put in place of the content of a state before its calls are written, one by one. -/
theorem applyTemplate_ends (schema : Schema) (template : Template) (state : State) :
    let changed := state.applyTemplate schema template
    Ends state (.ok (changed, changed)) ((changed.fault? schema).map EditError.unwritten)
      (fun left => left.uncached = changed.uncached) ((applyTemplate schema template).run state) := by
  have hEnds (description : String) := ends_written (Refresh.state_runs schema) state
    { state with description, actions := template.actions, rules := template.rules }
  have hRefreshed (state : State) : (state.refresh schema).fault? schema = state.fault? schema :=
    State.fault?_eq_of_uncached state.uncached_refresh
  rw [State.applyTemplate]
  dsimp only
  rw [hRefreshed, State.uncached_refresh, applyTemplate]
  cases template.description.isEmpty with
  | true => exact hEnds state.description
  | false => exact hEnds template.description

/-! ### Parts -/

/-- Writing back the item that is there changes nothing, which is how a refused edit leaves the
list. -/
theorem setItem_self {items : List α} {index : Int} {item : α}
    (hItem : item? items index = some item) : setItem items index item = items := by
  obtain ⟨place, hPlace, hAt⟩ := Option.bind_eq_some_iff.1 hItem
  obtain ⟨hLess, rfl⟩ := List.getElem?_eq_some_iff.1 hAt
  rw [setItem, hPlace]
  exact List.set_getElem_self hLess

/-- Writing back the block that is there changes nothing. -/
theorem setBlock_self {quest : Quest} {ref : BlockRef} {block : State}
    (hBlock : quest.block? ref = some block) : quest.setBlock ref block = quest := by
  cases ref with
  | main => exact congrArg (fun main => { quest with main }) hBlock.symm
  | state index =>
      have hStates : setItem quest.states index block = quest.states := setItem_self hBlock
      obtain ⟨place, hPlace, -⟩ := Option.bind_eq_some_iff.1 hBlock
      rw [setItem, hPlace] at hStates
      rw [Quest.setBlock, hPlace]
      exact congrArg (fun states => { quest with states }) hStates

/-- An edit of a whole that is the edit of a part. What is left of the part is in its place in what
is left of the whole, and so nothing happens to the whole if nothing happened to the part. -/
theorem onPart_ends (part? : σ → Option τ) (put : σ → τ → σ) (missing : EditError)
    {edit : InPlace τ α} {change : τ → Except EditError (α × τ)} {fault? : τ → Option EditError}
    {Left : τ → τ → Prop} {whole : σ} {outcome : Except EditError (α × σ)}
    (hEdit : ∀ part, Ends part (change part) (fault? part) (Left part) (edit.run part))
    (hNone : part? whole = none → outcome = .error missing)
    (hSome : ∀ part, part? whole = some part →
      put whole part = whole ∧ outcome = (change part).map fun done => (done.1, put whole done.2)) :
    Ends whole outcome ((part? whole).bind fault?)
      (fun left => ∃ part part', part? whole = some part ∧ Left part part' ∧ left = put whole part')
      ((onPart part? put missing edit).run whole) := by
  change Ends _ _ _ _ (onPart part? put missing edit whole)
  rw [onPart]
  cases hPart : part? whole with
  | none => exact .refused (hNone hPart)
  | some part =>
      obtain ⟨hPut, hOutcome⟩ := hSome part hPart
      have hEnds := hEdit part
      dsimp only [Option.bind_some]
      generalize edit.run part = ended at hEnds ⊢
      cases hEnds with
      | refused hChange =>
          dsimp only
          rw [hPut]
          exact .refused (by rw [hOutcome, hChange]; rfl)
      | done hChange hFault => exact .done (by rw [hOutcome, hChange]; rfl) hFault
      | stopped hChange hFault hLeft =>
          exact .stopped (by rw [hOutcome, hChange]; rfl) hFault ⟨part, _, rfl, hLeft, rfl⟩

/-- An edit of a block ends in the quest as it ends in the block, with every other block as it
was. -/
theorem onBlock_ends {edit : InPlace State α} {change : State → Except EditError (α × State)}
    {fault? : State → Option EditError} {Left : State → State → Prop}
    (hEdit : ∀ state, Ends state (change state) (fault? state) (Left state) (edit.run state))
    (ref : BlockRef) (part : BlockPart) (quest : Quest) :
    Ends quest (quest.editBlock ref part change) ((quest.block? ref).bind fault?)
      (fun left => ∃ block block', quest.block? ref = some block ∧ Left block block' ∧
        left = quest.setBlock ref block')
      ((onBlock ref part edit).run quest) := by
  refine onPart_ends (Quest.block? · ref) (Quest.setBlock · ref) (ref.missing part) hEdit
    (fun hNone => ?_) fun block hBlock => ⟨setBlock_self hBlock, ?_⟩
  · rw [Quest.editBlock, hNone]
  · rw [Quest.editBlock, hBlock]
    dsimp only
    cases change block <;> rfl

/-- An index has no place in a list, or it has one and there is an item. -/
theorem item?_cases (items : List α) (index : Int) :
    (place? items.length index = none ∧ item? items index = none) ∨
      ∃ place item, place? items.length index = some place ∧ items[place]? = some item ∧
        item? items index = some item ∧ setItem items index = items.set place := by
  cases hPlace : place? items.length index with
  | none => exact Or.inl ⟨rfl, by rw [item?, hPlace, Option.bind_none]⟩
  | some place =>
      have hLess : place < items.length := (place?_eq_some_iff.1 hPlace).1
      have hAt : items[place]? = some items[place] := List.getElem?_eq_getElem hLess
      refine Or.inr ⟨place, items[place], rfl, hAt, ?_, ?_⟩
      · rw [item?, hPlace, Option.bind_some, hAt]
      · funext item
        rw [setItem, hPlace]

/-- An edit of an action ends in the block as it ends in the action. -/
theorem onAction_ends {edit : InPlace Action Action} {change : Action → Except EditError Action}
    {fault? : Action → Option EditError} {Left : Action → Action → Prop}
    (hEdit : ∀ action, Ends action ((change action).map fun action => (action, action))
      (fault? action) (Left action) (edit.run action))
    (index : Int) (state : State) :
    Ends state (state.editAction index change) ((item? state.actions index).bind fault?)
      (fun left => ∃ action action', item? state.actions index = some action ∧
        Left action action' ∧ left = { state with actions := setItem state.actions index action' })
      ((onAction index edit).run state) := by
  have hEnds := @onPart_ends _ _ _ (fun state => item? state.actions index)
    (fun state action => { state with actions := setItem state.actions index action })
    (EditError.noCall.ofIndex index) edit _ fault? Left state (state.editAction index change) hEdit
  rcases item?_cases state.actions index with
    ⟨hPlace, hItem⟩ | ⟨place, found, hPlace, hAt, hItem, hSet⟩
  · refine hEnds (fun _ => ?_) fun action hAction => ?_
    · rw [State.editAction, hPlace]
    · rw [hItem] at hAction
      cases hAction
  · refine hEnds (fun hNone => ?_) fun action hAction => ⟨?_, ?_⟩
    · rw [hItem] at hNone
      cases hNone
    · exact congrArg (fun actions => { state with actions }) (setItem_self hAction)
    · obtain rfl : found = action := Option.some.inj (hItem.symm.trans hAction)
      simp only [State.editAction, hPlace, hAt, hSet]
      cases change found <;> rfl

/-- An edit of a rule ends in the block as it ends in the rule. -/
theorem onRule_ends {edit : InPlace Rule Rule} {change : Rule → Except EditError Rule}
    {fault? : Rule → Option EditError} {Left : Rule → Rule → Prop}
    (hEdit : ∀ rule, Ends rule ((change rule).map fun rule => (rule, rule))
      (fault? rule) (Left rule) (edit.run rule))
    (index : Int) (state : State) :
    Ends state (state.editRule index change) ((item? state.rules index).bind fault?)
      (fun left => ∃ rule rule', item? state.rules index = some rule ∧
        Left rule rule' ∧ left = { state with rules := setItem state.rules index rule' })
      ((onRule index edit).run state) := by
  have hEnds := @onPart_ends _ _ _ (fun state => item? state.rules index)
    (fun state rule => { state with rules := setItem state.rules index rule })
    (EditError.noCall.ofIndex index) edit _ fault? Left state (state.editRule index change) hEdit
  rcases item?_cases state.rules index with
    ⟨hPlace, hItem⟩ | ⟨place, found, hPlace, hAt, hItem, hSet⟩
  · refine hEnds (fun _ => ?_) fun rule hRule => ?_
    · rw [State.editRule, hPlace]
    · rw [hItem] at hRule
      cases hRule
  · refine hEnds (fun hNone => ?_) fun rule hRule => ⟨?_, ?_⟩
    · rw [hItem] at hNone
      cases hNone
    · exact congrArg (fun rules => { state with rules }) (setItem_self hRule)
    · obtain rfl : found = rule := Option.some.inj (hItem.symm.trans hRule)
      simp only [State.editRule, hPlace, hAt, hSet]
      cases change found <;> rfl

end InPlace

end QuestScript

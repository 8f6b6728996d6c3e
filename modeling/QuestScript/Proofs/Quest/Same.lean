import QuestScript.Proofs.Table
import QuestScript.Quest.Printer
/-!
Equal quests. Quests are compared by what counts in them, and every quest is equal to itself.
-/

namespace QuestScript

theorem Binary64.sameValue_refl (x : Binary64) : x.sameValue x = true := by
  cases x <;> simp [sameValue]

theorem Number.sameValue_refl (number : Number) : number.sameValue number = true := by
  cases number with
  | int n => simp [sameValue]
  | float x => exact x.sameValue_refl

theorem Number.sameOptional_refl (number : Option Number) :
    Number.sameOptional number number = true := by
  cases number with
  | none => rfl
  | some number => exact number.sameValue_refl

/-- A list is the same as itself, if its items are the same as themselves. -/
theorem sameItems_refl {α : Type} {same : α → α → Bool} (hSame : ∀ item, same item item = true)
    (items : List α) : sameItems same items items = true := by
  induction items with
  | nil => rfl
  | cons item items ih => simp [sameItems, hSame item, ih]

theorem RandomBlock.same_refl (block : RandomBlock) : block.same block = true := by
  have hTargets : sameItems RandomTarget.same block.targets block.targets = true :=
    sameItems_refl (fun target => by simp [RandomTarget.same, Number.sameValue_refl]) _
  simp [RandomBlock.same, hTargets]

/-! ### Content -/

/-- The quest without its cached text and without how its texts were written. -/
def Quest.content (quest : Quest) : Quest :=
  { quest with
    extra := quest.extra.map (Option.map Param.content)
    main := quest.main.map State.content
    states := quest.states.map State.content }

theorem Param.content_content (param : Param) : param.content.content = param.content := by
  cases param <;> rfl

theorem Action.content_content (action : Action) : action.content.content = action.content := by
  simp [Action.content, Function.comp_def, Param.content_content]

theorem Rule.content_content (rule : Rule) : rule.content.content = rule.content := by
  simp [Rule.content, Function.comp_def, Param.content_content]

theorem State.content_content (state : State) : state.content.content = state.content := by
  simp [State.content, Function.comp_def, Action.content_content, Rule.content_content]

/-- How a text was written does not count for whether it can be written again. -/
theorem Param.listFault?_map_content (params : List Param) (slots : List Schema.Slot) :
    listFault? (params.map content) slots = listFault? params slots := by
  have hValue (param : Param) : param.content.valueFault? = param.valueFault? := by
    cases param <;> rfl
  have hPrint (param : Param) (type : Schema.SlotType) :
      param.content.printInFault? type = param.printInFault? type := by
    cases param <;> cases type <;> rfl
  induction params generalizing slots with
  | nil => cases slots <;> rfl
  | cons param params ih =>
      cases slots with
      | nil => rw [List.map_cons, listFault?, listFault?, hValue, ih]
      | cons slot slots => rw [List.map_cons, listFault?, listFault?, hPrint, ih]

/-- Whether a state can be written depends on its content only. -/
theorem State.fault?_content (schema : Schema) (state : State) :
    state.content.fault? schema = state.fault? schema := by
  have hAction : Action.fault? schema ∘ Action.content = Action.fault? schema :=
    funext fun action => Param.listFault?_map_content action.params _
  have hRule : Rule.fault? schema ∘ Rule.content = Rule.fault? schema :=
    funext fun rule => Param.listFault?_map_content rule.params _
  simp only [fault?, content, List.findSome?_map, hAction, hRule]

theorem Quest.callFault?_content (schema : Schema) (quest : Quest) :
    quest.content.callFault? schema = quest.callFault? schema := by
  have hState : State.fault? schema ∘ State.content = State.fault? schema :=
    funext (State.fault?_content schema)
  simp only [callFault?, blocks, content, Option.toList_map, List.findSome?_append,
    List.findSome?_map, hState]

/-- Refreshing changes no content. Kept texts are no part of it. -/
theorem State.content_refresh (schema : Schema) (state : State) :
    (state.refresh schema).content = state.content := by
  simp only [State.content, State.refresh, List.map_map]
  rfl

/-- Refreshing a quest changes no content. -/
theorem Quest.content_refresh (schema : Schema) (quest : Quest) :
    (quest.refresh schema).content = quest.content := by
  have hStates : State.content ∘ State.refresh schema = State.content :=
    funext (State.content_refresh schema)
  simp only [content, refresh, Option.map_map, List.map_map, hStates]

theorem Quest.content_content (quest : Quest) : quest.content.content = quest.content := by
  have hStates : State.content ∘ State.content = State.content := funext State.content_content
  have hParams : Param.content ∘ Param.content = Param.content := funext Param.content_content
  have hExtra : Option.map Param.content ∘ Option.map Param.content = Option.map Param.content := by
    rw [Option.map_comp_map, hParams]
  simp only [content, Table.map_map, Option.map_map, List.map_map, hStates, hExtra]

/-- Quests are equal if they have the same content. -/
theorem Quest.same_of_content_eq {left right : Quest} (hContent : left.content = right.content) :
    left.same right = true := by
  simp only [content, Quest.mk.injEq] at hContent
  obtain ⟨hId, hName, hVersion, hGates, hFlags, hExtra, hMain, hStates, hRandom⟩ := hContent
  have hEachGate : Gate.all.all (fun gate =>
      Number.sameOptional (right.gates.get gate) (right.gates.get gate)) = true := by
    simp [Number.sameOptional_refl]
  simp only [Quest.same, hId, hName, hVersion, hGates, hFlags, hExtra, hMain, hStates, hRandom,
    Number.sameValue_refl, hEachGate, Table.sameEntries_refl, sameItems_refl RandomBlock.same_refl,
    beq_self_eq_true, Bool.and_self]

/-- Every quest is the same as itself, even with a number that is none. The comparison of numbers
is by identity there. -/
theorem Quest.same_refl (quest : Quest) : quest.same quest = true := same_of_content_eq rfl

end QuestScript

import QuestScript.Proofs.Number.Decimal
import QuestScript.Proofs.Quest.Reading
import QuestScript.Proofs.Script.OneLine
import QuestScript.Proofs.Table
import Mathlib.Data.List.Nodup
/-!
What every quest that was read from a script is like: names do not repeat, weights are not negative,
all text stays on one line, declared arguments have the type of their slot, and the cached text of
each call is the text that it is written as. The invariant is carried from event to event, with the
block that is still open as a part of it.
-/

namespace QuestScript

open Script (Arg Call Event Section Token)

/-! ### Texts of a quest -/

def Param.strings : Param → List String
  | .text value _ => [value]
  | .int _ => []

def Action.strings (action : Action) : List String :=
  action.type :: action.rawText :: action.params.flatMap Param.strings

def Rule.strings (rule : Rule) : List String :=
  rule.type :: rule.goto :: rule.rawText :: rule.params.flatMap Param.strings

def State.strings (state : State) : List String :=
  state.name :: state.description ::
    (state.actions.flatMap Action.strings ++ state.rules.flatMap Rule.strings)

def RandomBlock.strings (block : RandomBlock) : List String :=
  block.name :: block.targets.map RandomTarget.state

def extraStrings (entry : String × Option Param) : List String :=
  entry.1 :: entry.2.toList.flatMap Param.strings

/-- Every text of a quest, the cached ones included. -/
def Quest.strings (quest : Quest) : List String :=
  quest.name :: (quest.extra.entries.flatMap extraStrings ++
    quest.blocks.flatMap State.strings ++ quest.random.flatMap RandomBlock.strings)

/-! ### Slots of a schema -/

namespace Schema

/-- Slot by slot, the slots of a name are those of its entry in the table. A name without entry
has none. -/
theorem getElem?_slots {table : Table String Entry} {name : String} {i : Nat} {slot : Slot} :
    (((table.get? name).map Entry.slots).getD [])[i]? = some slot ↔
      ∃ entry, (name, entry) ∈ table.entries ∧ entry.slots[i]? = some slot := by
  simp only [← Table.get?_eq_some_iff]
  cases table.get? name <;> simp

/-- The slots of an action are those of its entry among the actions, which is the only one of its
name. An action without an entry has none. -/
theorem getElem?_actionSlots {schema : Schema} {name : String} {i : Nat} {slot : Slot} :
    (schema.actionSlots name)[i]? = some slot ↔
      ∃ entry, (name, entry) ∈ schema.actions.entries ∧ entry.slots[i]? = some slot :=
  getElem?_slots

/-- The slots of a rule are those of its entry among the rules, even where an action has its name. -/
theorem getElem?_ruleSlots {schema : Schema} {name : String} {i : Nat} {slot : Slot} :
    (schema.ruleSlots name)[i]? = some slot ↔
      ∃ entry, (name, entry) ∈ schema.rules.entries ∧ entry.slots[i]? = some slot :=
  getElem?_slots

end Schema

/-! ### Canonical quests -/

/-- A parameter is of the type of a slot. -/
def Param.HasType : Param → Schema.SlotType → Prop
  | .text _ _, .string => True
  | .int _, .integer => True
  | _, _ => False

/-- Parameters are of the types of the slots that stand at their places. -/
def Param.TypedBy (params : List Param) (slots : List Schema.Slot) : Prop :=
  ∀ (i : Nat) (param : Param) (slot : Schema.Slot), params[i]? = some param →
    slots[i]? = some slot → param.HasType slot.type

/-- An action that may be one, with typed parameters and the text that it is written as. -/
structure Action.Canonical (schema : Schema) (action : Action) : Prop where
  allowed : schema.AllowsAction action.type
  typed : Param.TypedBy action.params (schema.actionSlots action.type)
  rawText : action.rawText = action.print schema

/-- A rule with typed parameters and the text that it is written as. -/
structure Rule.Canonical (schema : Schema) (rule : Rule) : Prop where
  typed : Param.TypedBy rule.params (schema.ruleSlots rule.type)
  rawText : rule.rawText = rule.print schema

/-- A block of statements as scripts give it. -/
structure State.Canonical (schema : Schema) (state : State) : Prop where
  oneLine : ∀ text ∈ state.strings, OneLine text
  actions : ∀ action ∈ state.actions, action.Canonical schema
  rules : ∀ rule ∈ state.rules, rule.Canonical schema

/-- A random block as scripts give it: its weights are integers that are not negative. -/
structure RandomBlock.Canonical (block : RandomBlock) : Prop where
  oneLine : ∀ text ∈ block.strings, OneLine text
  weights : ∀ target ∈ block.targets, ∃ weight : Int, target.weight = .int weight ∧ 0 ≤ weight

/-- A quest as scripts give it. -/
structure Quest.Canonical (schema : Schema) (quest : Quest) : Prop where
  stateNames : quest.stateNames.Nodup
  randomNames : (quest.random.map RandomBlock.name).Nodup
  mainName : ∀ main, quest.main = some main → main.name = "Main"
  oneLine : ∀ text ∈ quest.strings, OneLine text
  blocks : ∀ block ∈ quest.blocks, block.Canonical schema
  random : ∀ block ∈ quest.random, block.Canonical

/-! ### Texts of calls -/

theorem oneLine_toString (n : Int) : OneLine (toString n) := by
  obtain ⟨c, rest, hDigits, hAll⟩ := Integer.toDigits_shape n.natAbs
  rw [OneLine, Integer.toList_toString, hDigits]
  intro hMem
  have hDigit : '\n' ∈ c :: rest := by
    rcases List.mem_append.1 hMem with h | h
    · split at h <;> simp at h
    · exact h
  exact absurd (hAll _ hDigit) (by decide)

theorem oneLine_inQuotes {text : String} (hText : OneLine text) : OneLine (inQuotes text) := by
  rw [inQuotes, OneLine.append_iff, OneLine.append_iff]
  exact ⟨⟨by decide, hText⟩, by decide⟩

theorem oneLine_printName {name : String} (hName : OneLine name) : OneLine (printName name) := by
  unfold printName
  split
  · exact hName
  · exact oneLine_inQuotes hName

namespace Param

/-- A parameter is printed on one line when its texts have none but one line. -/
theorem oneLine_print {param : Param} (hParam : ∀ text ∈ param.strings, OneLine text) :
    OneLine param.print := by
  cases param with
  | int n => exact oneLine_toString n
  | text value bare =>
      have hValue : OneLine value := hParam value (by simp [Param.strings])
      rw [Param.print]
      split
      · exact hValue
      · exact oneLine_inQuotes hValue

theorem oneLine_printIn {param : Param} (hParam : ∀ text ∈ param.strings, OneLine text)
    (type : Schema.SlotType) : OneLine (param.printIn type) := by
  cases type with
  | string =>
      cases param with
      | int n => exact oneLine_inQuotes (oneLine_toString n)
      | text value bare => exact oneLine_inQuotes (hParam value (by simp [Param.strings]))
  | integer => cases param <;> exact oneLine_toString _

/-- What the slots ask for adds no line feed to the printed arguments. -/
theorem oneLine_printList {params : List Param}
    (hParams : ∀ text ∈ params.flatMap Param.strings, OneLine text) (slots : List Schema.Slot) :
    ∀ text ∈ printList params slots, OneLine text := by
  fun_induction printList params slots with
  | case1 => simp
  | case2 param params ih =>
      intro text hMem
      rcases List.mem_cons.1 hMem with rfl | hMem
      · exact oneLine_print fun t ht => hParams t (by simp [ht])
      · exact ih (fun t ht => hParams t (by
          rw [List.flatMap_cons]
          exact List.mem_append_right _ ht)) text hMem
  | case3 param params slot slots ih =>
      intro text hMem
      rcases List.mem_cons.1 hMem with rfl | hMem
      · exact oneLine_printIn (fun t ht => hParams t (by simp [ht])) slot.type
      · exact ih (fun t ht => hParams t (by
          rw [List.flatMap_cons]
          exact List.mem_append_right _ ht)) text hMem

/-- The text of an argument is kept by its parameter, so the line it stands on is too. -/
theorem strings_sniff {arg : Arg} (hArg : OneLine arg.text) :
    ∀ text ∈ (sniff arg).strings, OneLine text := by
  cases arg with
  | quoted value => simpa [sniff, Param.quoted, Param.strings, Arg.text] using hArg
  | number value =>
      rw [sniff]
      split
      · simp [Param.strings]
      · simpa [Param.strings, Arg.text] using hArg
  | word value => simpa [sniff, Param.strings, Arg.text] using hArg

theorem strings_coerce {arg : Arg} (hArg : OneLine arg.text) (type : Schema.SlotType) :
    ∀ text ∈ (coerce arg type).strings, OneLine text := by
  cases type with
  | string => simpa [coerce, Param.quoted, Param.strings] using hArg
  | integer => cases arg <;> simp [coerce, Param.strings]

theorem strings_ofArgs {args : List Arg} (hArgs : ∀ arg ∈ args, OneLine arg.text)
    (slots : List Schema.Slot) : ∀ text ∈ (ofArgs args slots).flatMap Param.strings,
      OneLine text := by
  fun_induction ofArgs args slots with
  | case1 => simp
  | case2 arg args ih =>
      intro text hMem
      rw [List.flatMap_cons, List.mem_append] at hMem
      rcases hMem with hMem | hMem
      · exact strings_sniff (hArgs arg (by simp)) text hMem
      · exact ih (fun a ha => hArgs a (by simp [ha])) text hMem
  | case3 arg args slot slots ih =>
      intro text hMem
      rw [List.flatMap_cons, List.mem_append] at hMem
      rcases hMem with hMem | hMem
      · exact strings_coerce (hArgs arg (by simp)) slot.type text hMem
      · exact ih (fun a ha => hArgs a (by simp [ha])) text hMem

/-- A parameter made for a slot has the type of the slot, whatever the argument was. A word in an
integer slot becomes zero. -/
theorem hasType_coerce (arg : Arg) (type : Schema.SlotType) : (coerce arg type).HasType type := by
  cases type with
  | string => exact trivial
  | integer => cases arg <;> exact trivial

/-- Arguments become parameters of the types of their slots. -/
theorem typedBy_ofArgs (args : List Arg) (slots : List Schema.Slot) :
    TypedBy (ofArgs args slots) slots := by
  fun_induction ofArgs args slots with
  | case1 => simp [TypedBy]
  | case2 arg args ih =>
      intro i param slot _ hSlot
      simp at hSlot
  | case3 arg args slot slots ih =>
      intro i param slot' hParam hSlot
      cases i with
      | zero =>
          rw [List.getElem?_cons_zero, Option.some.injEq] at hParam hSlot
          rw [← hParam, ← hSlot]
          exact hasType_coerce arg slot.type
      | succ i => exact ih i param slot' hParam hSlot

end Param

theorem oneLine_printCall {name : String} {params : List Param} (hName : OneLine name)
    (hParams : ∀ text ∈ params.flatMap Param.strings, OneLine text) (slots : List Schema.Slot) :
    OneLine (printCall name params slots) := by
  have hList := OneLine.intercalate ", " (by decide)
    (Param.oneLine_printList hParams slots)
  simp only [printCall, OneLine.append_iff]
  exact ⟨⟨⟨hName, by decide⟩, hList⟩, by decide⟩

namespace Draft

/-- An action made of a call is canonical as soon as the schema allows its name: its parameters
are typed, and its text is printed from them. -/
theorem actionOf_canonical {schema : Schema} {call : Call}
    (hAllowed : schema.AllowsAction call.name.value) : (actionOf schema call).Canonical schema :=
  ⟨hAllowed, Param.typedBy_ofArgs _ _, rfl⟩

/-- A rule made of a call is canonical. No schema forbids a rule. -/
theorem ruleOf_canonical (schema : Schema) (call : Call) (goto : String) :
    (ruleOf schema call goto).Canonical schema :=
  ⟨Param.typedBy_ofArgs _ _, rfl⟩

theorem oneLine_args {call : Call} (hTexts : ∀ text ∈ (Event.call call).strings, OneLine text) :
    ∀ arg ∈ call.args, OneLine arg.text := by
  intro arg hArg
  refine hTexts arg.text ?_
  simp only [Event.strings, List.mem_cons, List.mem_append, List.mem_map]
  exact Or.inr (Or.inl ⟨arg, hArg, rfl⟩)

/-- No text of an action has a line feed when no argument of its call has one. The printed text is
among them. -/
theorem actionOf_oneLine {schema : Schema} {call : Call}
    (hTexts : ∀ text ∈ (Event.call call).strings, OneLine text) :
    ∀ text ∈ (actionOf schema call).strings, OneLine text := by
  have hName : OneLine call.name.value := hTexts _ (by simp [Event.strings])
  have hParams := Param.strings_ofArgs (oneLine_args hTexts) (schema.actionSlots call.name.value)
  intro text hMem
  simp only [actionOf, Action.refresh, Action.strings, List.mem_cons] at hMem
  rcases hMem with rfl | rfl | hMem
  · exact hName
  · rw [Action.print, OneLine.append_iff]
    refine ⟨oneLine_printCall hName hParams _, ?_⟩
    split <;> decide
  · exact hParams text hMem

/-- No text of a rule has a line feed when its call and its target have none. -/
theorem ruleOf_oneLine {schema : Schema} {call : Call} {goto : String}
    (hGoto : call.goto = some goto)
    (hTexts : ∀ text ∈ (Event.call call).strings, OneLine text) :
    ∀ text ∈ (ruleOf schema call goto).strings, OneLine text := by
  have hName : OneLine call.name.value := hTexts _ (by simp [Event.strings])
  have hTarget : OneLine goto := hTexts _ (by simp [Event.strings, hGoto])
  have hParams := Param.strings_ofArgs (oneLine_args hTexts) (schema.ruleSlots call.name.value)
  intro text hMem
  simp only [ruleOf, Rule.refresh, Rule.strings, List.mem_cons] at hMem
  rcases hMem with rfl | rfl | rfl | hMem
  · exact hName
  · exact hTarget
  · simp only [Rule.print, OneLine.append_iff]
    exact ⟨⟨oneLine_printCall hName hParams _, by decide⟩, oneLine_printName hTarget⟩
  · exact hParams text hMem

end Draft

/-! ### The invariant -/

/-- A quest as scripts give it, with an open block that may be added to it. -/
structure Quest.Holds (schema : Schema) (quest : Quest) (current : Option OpenBlock) : Prop where
  quest : quest.Canonical schema
  state : ∀ block, current = some block → block.state.Canonical schema
  name : ∀ block, current = some block → block.state.name = block.block.name

theorem State.named_canonical {schema : Schema} {name : String} (hName : OneLine name) :
    (State.named name).Canonical schema :=
  ⟨by simpa [State.named, State.strings] using hName, by simp [State.named], by simp [State.named]⟩

theorem State.Canonical.describe {schema : Schema} {state : State}
    (hState : state.Canonical schema) {text : String} (hText : OneLine text) :
    State.Canonical schema { state with description := text } := by
  refine ⟨?_, hState.actions, hState.rules⟩
  have hTexts := hState.oneLine
  simp only [State.strings, List.forall_mem_cons] at hTexts ⊢
  exact ⟨hTexts.1, hText, hTexts.2.2⟩

/-- A block stays canonical when a canonical action is added to it. -/
theorem State.Canonical.addAction {schema : Schema} {state : State}
    (hState : state.Canonical schema) {action : Action} (hAction : action.Canonical schema)
    (hTexts : ∀ text ∈ action.strings, OneLine text) :
    State.Canonical schema { state with actions := state.actions ++ [action] } := by
  refine ⟨?_, ?_, hState.rules⟩
  · have hOld := hState.oneLine
    simp only [State.strings, List.forall_mem_cons, List.forall_mem_append, List.flatMap_append,
      List.flatMap_singleton] at hOld ⊢
    exact ⟨hOld.1, hOld.2.1, ⟨hOld.2.2.1, hTexts⟩, hOld.2.2.2⟩
  · exact List.forall_mem_append.2 ⟨hState.actions, List.forall_mem_singleton.2 hAction⟩

/-- A block stays canonical when a canonical rule is added to it. -/
theorem State.Canonical.addRule {schema : Schema} {state : State}
    (hState : state.Canonical schema) {rule : Rule} (hRule : rule.Canonical schema)
    (hTexts : ∀ text ∈ rule.strings, OneLine text) :
    State.Canonical schema { state with rules := state.rules ++ [rule] } := by
  refine ⟨?_, hState.actions, ?_⟩
  · have hOld := hState.oneLine
    simp only [State.strings, List.forall_mem_cons, List.forall_mem_append, List.flatMap_append,
      List.flatMap_singleton] at hOld ⊢
    exact ⟨hOld.1, hOld.2.1, hOld.2.2.1, hOld.2.2.2, hTexts⟩
  · exact List.forall_mem_append.2 ⟨hState.rules, List.forall_mem_singleton.2 hRule⟩

/-- The texts of a quest stay on one line if those of its parts do. -/
theorem Quest.oneLine_iff (quest : Quest) :
    (∀ text ∈ quest.strings, OneLine text) ↔
      OneLine quest.name ∧
      (∀ text ∈ quest.extra.entries.flatMap extraStrings, OneLine text) ∧
      (∀ block ∈ quest.blocks, ∀ text ∈ block.strings, OneLine text) ∧
      ∀ block ∈ quest.random, ∀ text ∈ block.strings, OneLine text := by
  simp only [Quest.strings, List.forall_mem_cons, List.forall_mem_append, List.mem_flatMap]
  grind

/-- The quest before the first line of a script has no names to repeat and no calls to type. -/
theorem Quest.blank_canonical (schema : Schema) (id : Number) :
    (Quest.blank id).Canonical schema := by
  refine ⟨?_, ?_, ?_, ?_, ?_, ?_⟩ <;>
    simp [Quest.blank, Quest.stateNames, Quest.strings, Quest.blocks, Table.empty]

/-- No attribute puts a line feed into the name of a quest. -/
theorem Draft.setAttribute_name {quest : Quest} {known : Attribute} {value : Option Arg}
    (hQuest : OneLine quest.name) (hValue : ∀ arg ∈ value, OneLine arg.text) :
    OneLine (setAttribute quest known value).name := by
  cases known with
  | questName =>
      cases value with
      | none => exact OneLine.empty
      | some arg => exact hValue arg rfl
  | version => exact hQuest
  | gate gate => exact hQuest
  | flag flag => exact hQuest

/-- A known attribute changes no name, no block and no table, so the quest stays canonical. -/
theorem Quest.Canonical.setAttribute {schema : Schema} {quest : Quest}
    (hQuest : quest.Canonical schema) (known : Attribute) {value : Option Arg}
    (hValue : ∀ arg ∈ value, OneLine arg.text) :
    (Draft.setAttribute quest known value).Canonical schema := by
  obtain ⟨hExtra, hMain, hStates, hRandom, _⟩ := Draft.setAttribute_frame quest known value
  obtain ⟨hName, hOld, hBlocks, hRandomTexts⟩ := quest.oneLine_iff.1 hQuest.oneLine
  have hBlocksEq : (Draft.setAttribute quest known value).blocks = quest.blocks := by
    rw [Quest.blocks, Quest.blocks, hMain, hStates]
  refine ⟨?_, ?_, ?_, (Quest.oneLine_iff _).2 ⟨?_, ?_, ?_, ?_⟩, ?_, ?_⟩
  · rw [Quest.stateNames, hStates]
    exact hQuest.stateNames
  · rw [hRandom]
    exact hQuest.randomNames
  · rw [hMain]
    exact hQuest.mainName
  · exact Draft.setAttribute_name hName hValue
  · rw [hExtra]
    exact hOld
  · rw [hBlocksEq]
    exact hBlocks
  · rw [hRandom]
    exact hRandomTexts
  · rw [hBlocksEq]
    exact hQuest.blocks
  · rw [hRandom]
    exact hQuest.random

/-- An unknown attribute is kept under its key, and its texts are all that has to be looked at. -/
theorem Quest.Canonical.putExtra {schema : Schema} {quest : Quest}
    (hQuest : quest.Canonical schema) {key : String} {value : Option Param}
    (hEntry : ∀ text ∈ extraStrings (key, value), OneLine text) :
    Quest.Canonical schema { quest with extra := quest.extra.put key value } := by
  obtain ⟨hName, hOld, hBlocks, hRandom⟩ := quest.oneLine_iff.1 hQuest.oneLine
  refine ⟨hQuest.stateNames, hQuest.randomNames, hQuest.mainName,
    (Quest.oneLine_iff _).2 ⟨hName, ?_, hBlocks, hRandom⟩, hQuest.blocks, hQuest.random⟩
  intro text hMem
  obtain ⟨entry, hPut, hText⟩ := List.mem_flatMap.1 hMem
  rcases Table.mem_putEntry hPut with rfl | hEntryOld
  · exact hEntry text hText
  · exact hOld text (List.mem_flatMap.2 ⟨entry, hEntryOld, hText⟩)

/-- A quest stays canonical when the main block is closed, under the one name it can have. -/
theorem Quest.Canonical.closeMain {schema : Schema} {quest : Quest}
    (hQuest : quest.Canonical schema) {main : State} (hMain : main.Canonical schema)
    (hName : main.name = "Main") : Quest.Canonical schema { quest with main := some main } := by
  obtain ⟨hQuestName, hExtra, hBlocks, hRandom⟩ := quest.oneLine_iff.1 hQuest.oneLine
  have hLines := Quest.forall_mem_blocks_closeMain hBlocks hMain.oneLine
  refine ⟨hQuest.stateNames, hQuest.randomNames, ?_,
    (Quest.oneLine_iff _).2 ⟨hQuestName, hExtra, hLines, hRandom⟩,
    Quest.forall_mem_blocks_closeMain hQuest.blocks hMain, hQuest.random⟩
  intro found hFound
  cases hFound
  exact hName

/-- A quest stays canonical when a state is closed. Its name is free, or the state would have been
refused at its header. -/
theorem Quest.Canonical.closeState {schema : Schema} {quest : Quest}
    (hQuest : quest.Canonical schema) {state : State} (hState : state.Canonical schema)
    (hFresh : state.name ∉ quest.stateNames) :
    Quest.Canonical schema { quest with states := quest.states ++ [state] } := by
  obtain ⟨hQuestName, hExtra, hBlocks, hRandom⟩ := quest.oneLine_iff.1 hQuest.oneLine
  have hLines := Quest.forall_mem_blocks_closeState hBlocks hState.oneLine
  refine ⟨?_, hQuest.randomNames, hQuest.mainName,
    (Quest.oneLine_iff _).2 ⟨hQuestName, hExtra, hLines, hRandom⟩,
    Quest.forall_mem_blocks_closeState hQuest.blocks hState, hQuest.random⟩
  rw [Quest.stateNames, List.map_append, List.map_singleton, ← List.concat_eq_append]
  exact List.Nodup.concat hFresh hQuest.stateNames

/-- A quest stays canonical when a random block is added whose name is free. -/
theorem Quest.Canonical.addRandom {schema : Schema} {quest : Quest}
    (hQuest : quest.Canonical schema) {block : RandomBlock} (hBlock : block.Canonical)
    (hFresh : block.name ∉ quest.random.map RandomBlock.name) :
    Quest.Canonical schema { quest with random := quest.random ++ [block] } := by
  obtain ⟨hQuestName, hExtra, hBlocks, hRandom⟩ := quest.oneLine_iff.1 hQuest.oneLine
  refine ⟨hQuest.stateNames, ?_, hQuest.mainName,
    (Quest.oneLine_iff _).2 ⟨hQuestName, hExtra, hBlocks, ?_⟩, hQuest.blocks, ?_⟩
  · rw [List.map_append, List.map_singleton, ← List.concat_eq_append]
    exact List.Nodup.concat hFresh hQuest.randomNames
  · exact List.forall_mem_append.2 ⟨hRandom, List.forall_mem_singleton.2 hBlock.oneLine⟩
  · exact List.forall_mem_append.2 ⟨hQuest.random, List.forall_mem_singleton.2 hBlock⟩

/-- A block that has just been opened has its name and nothing else. -/
theorem Quest.Canonical.holds_opened {schema : Schema} {quest : Quest}
    (hQuest : quest.Canonical schema) {block : Section} (hName : OneLine block.name)
    (opener : Token) : quest.Holds schema (some (.opened block opener)) := by
  refine ⟨hQuest, ?_, ?_⟩ <;> rintro _ ⟨⟩
  · exact State.named_canonical hName
  · rfl

/-- A change of the content of an open block. -/
theorem Quest.Holds.onBlock {schema : Schema} {quest : Quest} {current : Option OpenBlock}
    (holds : quest.Holds schema current) {change : OpenBlock → OpenBlock}
    (hState : ∀ old, old.state.Canonical schema → (change old).state.Canonical schema)
    (hName : ∀ old, (change old).state.name = old.state.name ∧ (change old).block = old.block) :
    quest.Holds schema (current.map change) := by
  refine ⟨holds.quest, ?_, ?_⟩ <;> intro block hBlock <;>
    obtain ⟨old, hOld, rfl⟩ := Option.map_eq_some_iff.1 hBlock
  · exact hState old (holds.state old hOld)
  · rw [(hName old).1, (hName old).2]
    exact holds.name old hOld

/-- Taking an event keeps the invariant: the quest gains at most a part that is as scripts give it,
and the open block a call or a description. -/
theorem Takes.holds {schema : Schema} {quest quest' : Quest} {current current' : Option OpenBlock}
    {event : Event} (takes : Takes schema quest current event quest' current')
    (hTexts : ∀ text ∈ event.strings, OneLine text)
    (hWeights : ∀ opener name targets, event = .random opener name targets →
      ∀ target ∈ targets, 0 ≤ target.2)
    (holds : quest.Holds schema current) : quest'.Holds schema current' := by
  cases takes with
  | @known _ key value known hKey =>
      refine ⟨holds.quest.setAttribute known fun arg hArg => hTexts arg.text ?_, holds.state,
        holds.name⟩
      cases hArg
      simp [Event.strings]
  | @other _ key value hKey =>
      refine ⟨holds.quest.putExtra ?_, holds.state, holds.name⟩
      simp only [extraStrings, List.forall_mem_cons]
      refine ⟨hTexts key.value (by simp [Event.strings]), ?_⟩
      cases value with
      | none => simp
      | some arg =>
          have hArg : OneLine arg.text := hTexts arg.text (by simp [Event.strings])
          simpa using Param.strings_sniff hArg
  | @openMain _ opener hMain => exact holds.quest.holds_opened (by decide) opener
  | @openState _ opener name =>
      have hName : OneLine (Section.state name).name := hTexts name (by simp [Event.strings])
      exact holds.quest.holds_opened hName opener
  | @desc _ keyword text =>
      have hText : OneLine text := hTexts text (by simp [Event.strings])
      exact holds.onBlock (fun _ hOld => hOld.describe hText) fun _ => ⟨rfl, rfl⟩
  | @action _ call hGoto hAllowed =>
      refine holds.onBlock (fun _ hOld => ?_) fun _ => ⟨rfl, rfl⟩
      exact hOld.addAction (Draft.actionOf_canonical hAllowed) (Draft.actionOf_oneLine hTexts)
  | @rule _ call target hGoto =>
      refine holds.onBlock (fun _ hOld => ?_) fun _ => ⟨rfl, rfl⟩
      exact hOld.addRule (Draft.ruleOf_canonical schema call target)
        (Draft.ruleOf_oneLine hGoto hTexts)
  | closeNone => exact holds
  | @closeMain current hBlock =>
      refine ⟨holds.quest.closeMain (holds.state current rfl) ?_, by simp, by simp⟩
      rw [holds.name current rfl, hBlock, Section.name]
  | @closeState current name hBlock hFresh =>
      refine ⟨holds.quest.closeState (holds.state current rfl) ?_, by simp, by simp⟩
      rwa [holds.name current rfl, hBlock, Section.name]
  | @random _ opener name targets hFresh =>
      refine ⟨holds.quest.addRandom ⟨?_, ?_⟩ hFresh, holds.state, holds.name⟩
      · simpa [RandomBlock.ofTargets, RandomBlock.strings, Event.strings, Function.comp_def]
          using hTexts
      · simp only [RandomBlock.ofTargets, List.forall_mem_map]
        exact fun target hTarget => ⟨target.2, rfl, hWeights _ _ _ rfl target hTarget⟩

/-- A whole run keeps the quest canonical, and the block that is open with it. The induction is on
the run, with one case for each event. -/
theorem Run.holds {schema : Schema} {quest quest' : Quest} {current current' : Option OpenBlock}
    {events : List Event} (run : Run schema quest current events quest' current')
    (hTexts : ∀ event ∈ events, ∀ text ∈ event.strings, OneLine text)
    (hWeights : ∀ event ∈ events, ∀ opener name targets, event = .random opener name targets →
      ∀ target ∈ targets, 0 ≤ target.2)
    (holds : quest.Holds schema current) : quest'.Holds schema current' := by
  induction run with
  | nil => exact holds
  | cons first rest ih =>
      exact ih (fun event hMem => hTexts event (List.mem_cons_of_mem _ hMem))
        (fun event hMem => hWeights event (List.mem_cons_of_mem _ hMem))
        (first.holds (hTexts _ (List.mem_cons_self ..)) (hWeights _ (List.mem_cons_self ..)) holds)

theorem Script.TargetsSpelled.weight_nonneg {tokens : List Token} {targets : List (String × Int)}
    (spelled : Script.TargetsSpelled tokens targets) : ∀ target ∈ targets, 0 ≤ target.2 := by
  induction spelled with
  | close hKind => simp
  | separator hKind rest ih => exact ih
  | plain hName rest ih => exact List.forall_mem_cons.2 ⟨Int.one_nonneg, ih⟩
  | weighted hName hWeight hFits hSign rest ih => exact List.forall_mem_cons.2 ⟨hSign, ih⟩

/-- The weights of the random blocks of a script are not negative, because a sign is no part of a
number token. -/
theorem Script.ScriptSpelled.weight_nonneg {scope : Script.Scope} {events : List Event}
    {tokens : List Token} (spelled : Script.ScriptSpelled scope events tokens) :
    ∀ event ∈ events, ∀ opener name targets, event = .random opener name targets →
      ∀ target ∈ targets, 0 ≤ target.2 := by
  induction spelled with
  | finished hFinal => simp
  | skip hKind rest ih => exact ih
  | event first rest ih =>
      refine List.forall_mem_cons.2 ⟨fun opener name targets hEvent => ?_, ih⟩
      subst hEvent
      cases first with
      | random hOpener hName hBrace spelled => exact spelled.weight_nonneg

/-- The quest at the end of a run is canonical. The texts of its tokens have no line feed, which
is what the run needs to know of them. -/
theorem Run.canonical {schema : Schema} {id : Number} {text : String} {tokens : List Token}
    {events : List Event} {quest : Quest} {current : Option OpenBlock}
    (run : Run schema (Quest.blank id) none events quest current)
    (hTokens : Script.tokenize text = .ok tokens)
    (hOutline : Script.Outline.ofTokens tokens = ⟨events, none⟩) : quest.Canonical schema := by
  have spelled := Script.outlineFrom_spelled (Script.tokenize_complete hTokens) hOutline
  have holds := run.holds (spelled.oneLine (Script.tokenize_wellFormed hTokens))
    spelled.weight_nonneg ⟨Quest.blank_canonical schema id, nofun, nofun⟩
  exact holds.quest

/-- Every quest that a script gives is canonical under the schema that it was read with. -/
theorem Quest.parse_canonical {schema : Schema} {id : Number} {text : String} {quest : Quest}
    {warnings : List Warning} (hParse : Quest.parse schema id text = .ok (quest, warnings)) :
    quest.Canonical schema := by
  obtain ⟨tokens, events, current, hTokens, hOutline, run⟩ := Quest.parse_ok_iff.1 ⟨_, hParse⟩
  exact run.canonical hTokens hOutline

/-- The number becomes text and the text a number where the slots are of the other type. -/
theorem Quest.parse_canonical_sample :
    let schema : Schema :=
      { actions := .ofList [("Say", .ofSignature "Say" "Say(\"text\", count);" "")]
        rules := .ofList [("Done", .ofSignature "Done" "Done(count, \"text\")" "")] }
    let text := "main \x7b Say(7, \"12x\"); \x7d
state A \x7b Say(\"hi\", 02) Done(\"3\", 4) goto \"A\"; \x7d random r \x7b A 3 \x7d"
    let quest : Quest :=
      { Quest.blank 7 with
        main := some ⟨"Main", "", [⟨"Say", [.quoted "7", .int 12], "Say(\"7\", 12);"⟩], []⟩
        states := [⟨"A", "", [⟨"Say", [.quoted "hi", .int 2], "Say(\"hi\", 2);"⟩],
          [⟨"Done", [.int 3, .quoted "4"], "A", "Done(3, \"4\") goto A"⟩]⟩]
        random := [⟨"r", [⟨"A", 3⟩]⟩] }
    Quest.parse schema 7 text = .ok (quest, []) ∧ quest.Canonical schema := by
  intro schema text quest
  have hParse : Quest.parse schema 7 text = .ok (quest, []) := by decide +kernel
  exact ⟨hParse, Quest.parse_canonical hParse⟩

end QuestScript

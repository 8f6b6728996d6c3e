import QuestScript.Document.Codec
import QuestScript.Skeleton
import QuestScript.Proofs.Quest.Canonical
import QuestScript.Proofs.Quest.Outcomes
/-!
The cached text of calls. However a quest was made, the text that is cached for each of its calls is
the text that the call is written as; and edits keep it so as long as each of them, where it is
carried out, makes calls that can be written.

Every way to make a quest ends with all texts made anew, and every edit makes the texts of the calls
anew that it touches. An edit that is stopped there has written a call already, and leaves it with the
text from before.
-/

namespace QuestScript

/-- The calls of a block are cached as they are written. -/
structure State.CachedText (schema : Schema) (state : State) : Prop where
  actions : ∀ action ∈ state.actions, action.write schema = .ok action.rawText
  rules : ∀ rule ∈ state.rules, rule.write schema = .ok rule.rawText

/-- The calls of the main block and of all states are cached as they are written. -/
structure Quest.CachedText (schema : Schema) (quest : Quest) : Prop where
  main : ∀ main, quest.main = some main → main.CachedText schema
  states : ∀ state ∈ quest.states, state.CachedText schema

/-- The ways to obtain a quest under a schema: from a script, from a document that a validator
accepts, from a skeleton. -/
inductive Quest.Obtained (schema : Schema) : Quest → Prop where
  | parsed {id : Number} {text : String} {quest : Quest} {warnings : List Warning}
      (hParse : Quest.parse schema id text = .ok (quest, warnings)) : Obtained schema quest
  | decoded {validator : Document.Validator} {id? : Option Number} {document : Json} {quest : Quest}
      (hDecode : Document.decodeWith validator schema id? document = .ok quest) :
      Obtained schema quest
  | instantiated {skeleton : Skeleton} (id : Number) (hSkeleton : skeleton ∈ Skeleton.all) :
      Obtained schema (skeleton.instantiate schema id)

/-- Where an edit is carried out as a whole, all calls of the quest that it makes can be written. -/
def Edit.Writable (schema : Schema) (quest : Quest) (edit : Edit) : Prop :=
  ∀ edited quest', edit.apply schema quest = .ok (edited, quest') →
    quest'.callFault? schema = none

/-- An edit is writable when it is not carried out, or gives a quest whose calls can all be
written. -/
theorem Edit.writable_iff {schema : Schema} {quest : Quest} {edit : Edit} :
    edit.Writable schema quest ↔
      ((edit.apply schema quest).toOption.bind fun done => done.2.callFault? schema) = none := by
  unfold Edit.Writable
  cases edit.apply schema quest with
  | error error => exact ⟨fun _ => rfl, fun _ _ _ hDone => by cases hDone⟩
  | ok done =>
      refine ⟨fun hWritable => hWritable done.1 done.2 rfl, fun hWritable edited quest' hDone => ?_⟩
      cases hDone
      exact hWritable

instance (schema : Schema) (quest : Quest) (edit : Edit) : Decidable (edit.Writable schema quest) :=
  decidable_of_iff _ Edit.writable_iff.symm

section

variable {schema : Schema}

/-! ### Texts as they are printed

What is cached is kept apart from what can be written: a text is made anew also of calls with integers
that are not converted, as long as an edit is looked at as a whole. -/

/-- The calls of a block are cached as they are printed. -/
structure State.Printed (schema : Schema) (state : State) : Prop where
  actions : ∀ action ∈ state.actions, action.rawText = action.print schema
  rules : ∀ rule ∈ state.rules, rule.rawText = rule.print schema

/-- The calls of the main block and of all states are cached as they are printed. -/
structure Quest.Printed (schema : Schema) (quest : Quest) : Prop where
  main : ∀ main, quest.main = some main → main.Printed schema
  states : ∀ state ∈ quest.states, state.Printed schema

/-- The text of an action is the one written when the action can be written and its text was
printed from it. -/
theorem Action.write_eq_rawText_iff {action : Action} :
    action.write schema = .ok action.rawText ↔
      action.fault? schema = none ∧ action.rawText = action.print schema := by
  rw [Action.write, Integer.guarded_eq_ok, eq_comm (a := action.print schema)]

theorem Rule.write_eq_rawText_iff {rule : Rule} :
    rule.write schema = .ok rule.rawText ↔
      rule.fault? schema = none ∧ rule.rawText = rule.print schema := by
  rw [Rule.write, Integer.guarded_eq_ok, eq_comm (a := rule.print schema)]

/-- The text of every call is the one written when all calls are printed and none has an integer
that is too long. -/
theorem State.cachedText_iff {state : State} :
    state.CachedText schema ↔ state.Printed schema ∧ state.fault? schema = none := by
  rw [State.fault?_eq_none_iff]
  constructor
  · rintro ⟨hActions, hRules⟩
    exact ⟨⟨fun action hMem => (Action.write_eq_rawText_iff.1 (hActions action hMem)).2,
        fun rule hMem => (Rule.write_eq_rawText_iff.1 (hRules rule hMem)).2⟩,
      fun action hMem => (Action.write_eq_rawText_iff.1 (hActions action hMem)).1,
      fun rule hMem => (Rule.write_eq_rawText_iff.1 (hRules rule hMem)).1⟩
  · rintro ⟨⟨hActions, hRules⟩, hActionFaults, hRuleFaults⟩
    exact ⟨fun action hMem =>
        Action.write_eq_rawText_iff.2 ⟨hActionFaults action hMem, hActions action hMem⟩,
      fun rule hMem => Rule.write_eq_rawText_iff.2 ⟨hRuleFaults rule hMem, hRules rule hMem⟩⟩

/-- Cached texts are right if they are as printed and everything can be written. -/
theorem Quest.cachedText_iff {quest : Quest} :
    quest.CachedText schema ↔ quest.Printed schema ∧ quest.callFault? schema = none := by
  rw [Quest.callFault?_eq_none_iff]
  constructor
  · rintro ⟨hMain, hStates⟩
    refine ⟨⟨fun main hSome => (State.cachedText_iff.1 (hMain main hSome)).1,
      fun state hMem => (State.cachedText_iff.1 (hStates state hMem)).1⟩, fun block hMem => ?_⟩
    rcases List.mem_append.1 hMem with hBlock | hBlock
    · exact (State.cachedText_iff.1 (hMain block (Option.mem_toList.1 hBlock))).2
    · exact (State.cachedText_iff.1 (hStates block hBlock)).2
  · rintro ⟨⟨hMain, hStates⟩, hFaults⟩
    exact ⟨fun main hSome => State.cachedText_iff.2 ⟨hMain main hSome,
        hFaults main (List.mem_append_left _ (Option.mem_toList.2 hSome))⟩,
      fun state hMem => State.cachedText_iff.2 ⟨hStates state hMem,
        hFaults state (List.mem_append_right _ hMem)⟩⟩

/-! ### Texts made anew -/

theorem Action.refresh_rawText (action : Action) :
    (action.refresh schema).rawText = (action.refresh schema).print schema := rfl

theorem Rule.refresh_rawText (rule : Rule) :
    (rule.refresh schema).rawText = (rule.refresh schema).print schema := rfl

/-- Refreshing a state prints all of its calls anew. -/
theorem State.refresh_printed (state : State) : (state.refresh schema).Printed schema :=
  ⟨List.forall_mem_map.2 fun action _ => action.refresh_rawText,
    List.forall_mem_map.2 fun rule _ => rule.refresh_rawText⟩

theorem Quest.refresh_printed (quest : Quest) : (quest.refresh schema).Printed schema := by
  refine ⟨fun main hMain => ?_, List.forall_mem_map.2 fun state _ => state.refresh_printed⟩
  obtain ⟨block, -, rfl⟩ := Option.map_eq_some_iff.1 hMain
  exact block.refresh_printed

theorem Quest.Canonical.printed {quest : Quest} (hQuest : quest.Canonical schema) :
    quest.Printed schema := by
  have hBlock : ∀ block ∈ quest.blocks, block.Printed schema := fun block hMem =>
    ⟨fun action hAction => ((hQuest.blocks block hMem).actions action hAction).rawText,
      fun rule hRule => ((hQuest.blocks block hMem).rules rule hRule).rawText⟩
  refine ⟨fun main hMain => hBlock main ?_, fun state hState => hBlock state ?_⟩
  · exact List.mem_append_left _ (Option.mem_toList.2 hMain)
  · exact List.mem_append_right _ hState

/-- Arguments that can be written in any slot, and without one. -/
theorem Param.listFault?_eq_none {params : List Param}
    (hParams : ∀ param ∈ params, param.valueFault? = none ∧
      ∀ type, param.printInFault? type = none) (slots : List Schema.Slot) :
    Param.listFault? params slots = none := by
  fun_induction Param.listFault? params slots with
  | case1 => rfl
  | case2 param params ih =>
      obtain ⟨hFirst, hRest⟩ := List.forall_mem_cons.1 hParams
      exact Option.or_eq_none_iff.2 ⟨hFirst.1, ih hRest⟩
  | case3 param params slot slots ih =>
      obtain ⟨hFirst, hRest⟩ := List.forall_mem_cons.1 hParams
      exact Option.or_eq_none_iff.2 ⟨hFirst.2 slot.type, ih hRest⟩

/-- What holds of every type of slots is what holds of the two types there are. -/
theorem Schema.SlotType.forall_iff {property : Schema.SlotType → Prop} :
    (∀ type, property type) ↔ property .string ∧ property .integer := by
  constructor
  · exact fun hAll => ⟨hAll .string, hAll .integer⟩
  · rintro ⟨hString, hInteger⟩ type
    cases type with
    | string => exact hString
    | integer => exact hInteger

/-- Skeletons hold short texts and small integers only. -/
theorem Skeleton.params_writable {skeleton : Skeleton} (hSkeleton : skeleton ∈ Skeleton.all) :
    ∀ state ∈ skeleton.states,
      (∀ action ∈ state.actions, ∀ param ∈ action.params,
        param.valueFault? = none ∧ ∀ type, param.printInFault? type = none) ∧
      ∀ rule ∈ state.rules, ∀ param ∈ rule.params,
        param.valueFault? = none ∧ ∀ type, param.printInFault? type = none := by
  revert skeleton
  simp only [Schema.SlotType.forall_iff]
  decide +kernel

/-- No skeleton has an integer near the limit, so a new quest can always be written. -/
theorem Skeleton.instantiate_callFault? {skeleton : Skeleton} (hSkeleton : skeleton ∈ Skeleton.all)
    (id : Number) : (skeleton.instantiate schema id).callFault? schema = none := by
  have hBlank : (skeleton.instantiate schema id).blocks =
      skeleton.states.map (State.refresh schema) := rfl
  rw [Quest.callFault?_eq_none_iff, hBlank]
  refine List.forall_mem_map.2 fun state hState => ?_
  obtain ⟨hActions, hRules⟩ := params_writable hSkeleton state hState
  rw [State.fault?_eq_of_uncached state.uncached_refresh, State.fault?_eq_none_iff]
  exact ⟨fun action hMem => Param.listFault?_eq_none (hActions action hMem) _,
    fun rule hMem => Param.listFault?_eq_none (hRules rule hMem) _⟩

/-- A quest that a document gives is one with all texts made anew. -/
theorem Document.exists_of_decodeWith {validator : Document.Validator} {id? : Option Number}
    {document : Json} {quest : Quest}
    (hDecode : decodeWith validator schema id? document = .ok quest) :
    ∃ made : Quest, made.callFault? schema = none ∧ quest = made.refresh schema := by
  unfold decodeWith at hDecode
  split at hDecode
  · cases hDecode
  · cases hDecode
  · unfold readAccepted at hDecode
    split at hDecode
    · cases hDecode
    · next made hRead =>
        generalize ({ made with id := id?.getD made.id } : Quest) = made' at hDecode
        cases hFault : made'.callFault? schema with
        | some fault =>
            simp only [hFault, Integer.guarded_some] at hDecode
            cases hDecode
        | none =>
            simp only [hFault, Integer.guarded_none] at hDecode
            cases hDecode
            exact ⟨made', hFault, rfl⟩

/-- Every way to obtain a quest ends in one whose texts are the ones written. A document is
decoded with its texts made anew, and a parsed script has integers within the limit. -/
theorem Quest.Obtained.cachedText {quest : Quest} (hQuest : quest.Obtained schema) :
    quest.CachedText schema := by
  rw [Quest.cachedText_iff]
  cases hQuest with
  | parsed hParse =>
      obtain ⟨tokens, events, current, hTokens, hOutline, run⟩ := Quest.parse_ok_iff.1 ⟨_, hParse⟩
      exact ⟨(run.canonical hTokens hOutline).printed,
        Quest.callFault?_eq_none_iff.2 fun block hMem => State.fault?_eq_none_iff.2
          ⟨(Quest.parse_sourced hParse).writable.actions block hMem,
            (Quest.parse_sourced hParse).writable.rules block hMem⟩⟩
  | decoded hDecode =>
      obtain ⟨made, hFault, rfl⟩ := Document.exists_of_decodeWith hDecode
      exact ⟨made.refresh_printed, made.callFault?_refresh.trans hFault⟩
  | instantiated id hSkeleton =>
      exact ⟨Quest.refresh_printed _, Skeleton.instantiate_callFault? hSkeleton id⟩

/-! ### Blocks -/

/-- The name of a state is in the text of no call of its own. -/
theorem State.Printed.rename {state : State} (hState : state.Printed schema) (name : String) :
    State.Printed schema { state with name } := ⟨hState.actions, hState.rules⟩

/-- A call that is redirected is printed anew, and the others keep the texts they have. -/
theorem State.Printed.redirect {state : State} (hState : state.Printed schema)
    (old new : String) : (state.redirect schema old new).Printed schema := by
  refine ⟨List.forall_mem_map.2 fun action hMem => ?_, List.forall_mem_map.2 fun rule hMem => ?_⟩
  · split
    · exact Action.refresh_rawText _
    · exact hState.actions action hMem
  · split
    · exact Rule.refresh_rawText _
    · exact hState.rules rule hMem

theorem State.applyTemplate_printed (state : State) (template : Template) :
    (state.applyTemplate schema template).Printed schema :=
  State.refresh_printed _

/-- What comes in the place of an item is the only new item. -/
theorem forall_mem_set {α : Type} {property : α → Prop} {items : List α}
    (hItems : ∀ item ∈ items, property item) {item : α} (hItem : property item) (place : Nat) :
    ∀ other ∈ items.set place item, property other := by
  intro other hMem
  rcases List.mem_or_eq_of_mem_set hMem with hOld | rfl
  · exact hItems other hOld
  · exact hItem

/-- A change of a block leaves the calls of it as they are cached or writes them anew. -/
theorem State.Printed.changed {block block' : State} (hBlock : block.Printed schema)
    (hChanged : block.Changed schema block') : block'.Printed schema := by
  obtain ⟨hActions, hRules⟩ := hBlock
  cases hChanged with
  | addAction action =>
      refine ⟨List.forall_mem_append.2 ⟨hActions, ?_⟩, hRules⟩
      exact List.forall_mem_singleton.2 action.refresh_rawText
  | addRule rule =>
      refine ⟨hActions, List.forall_mem_append.2 ⟨hRules, ?_⟩⟩
      exact List.forall_mem_singleton.2 rule.refresh_rawText
  | setAction place action => exact ⟨forall_mem_set hActions action.refresh_rawText place, hRules⟩
  | setRule place rule => exact ⟨hActions, forall_mem_set hRules rule.refresh_rawText place⟩
  | applyTemplate template => exact block.applyTemplate_printed template

/-! ### Quests -/

variable {quest quest' : Quest}

/-- An edit of one block keeps the others printed. -/
theorem Quest.Printed.setBlock (hQuest : quest.Printed schema) {block : State}
    (hBlock : block.Printed schema) (ref : BlockRef) :
    (quest.setBlock ref block).Printed schema := by
  cases ref with
  | main => exact ⟨fun main hMain => Option.some.inj hMain ▸ hBlock, hQuest.states⟩
  | state index =>
      rw [Quest.setBlock]
      split
      · exact ⟨hQuest.main, forall_mem_set hQuest.states hBlock _⟩
      · exact hQuest

theorem Quest.Printed.block? (hQuest : quest.Printed schema) {ref : BlockRef} {block : State}
    (hBlock : quest.block? ref = some block) : block.Printed schema := by
  cases ref with
  | main => exact hQuest.main block hBlock
  | state index =>
      obtain ⟨place, -, hState⟩ := Option.bind_eq_some_iff.1 hBlock
      exact hQuest.states block (List.mem_of_getElem? hState)

/-- The states around an edited one are printed when all of the quest is. -/
theorem Quest.Printed.around {before after : List State} {state : State}
    (hQuest : quest.Printed schema) (hStates : quest.states = before ++ state :: after) :
    (∀ other ∈ before, other.Printed schema) ∧ state.Printed schema ∧
      ∀ other ∈ after, other.Printed schema := by
  have hAll := hQuest.states
  rwa [hStates, List.forall_mem_append, List.forall_mem_cons] at hAll

/-- One edit that is carried out leaves cached texts as printed. -/
theorem Quest.Printed.changed {edit : Edit} (hQuest : quest.Printed schema)
    (hChanged : quest.Changed schema edit quest') : quest'.Printed schema := by
  cases hChanged with
  | @addState _ name =>
      have hNew : (State.named name).Printed schema := ⟨nofun, nofun⟩
      exact ⟨hQuest.main,
        List.forall_mem_append.2 ⟨hQuest.states, List.forall_mem_singleton.2 hNew⟩⟩
  | @duplicateState _ newName _ _ _ hStates =>
      obtain ⟨hBefore, hSource, hAfter⟩ := hQuest.around hStates
      have hRest := List.forall_mem_cons.2 ⟨hSource.rename newName, hAfter⟩
      exact ⟨hQuest.main,
        List.forall_mem_append.2 ⟨hBefore, List.forall_mem_cons.2 ⟨hSource, hRest⟩⟩⟩
  | removeState hStates =>
      obtain ⟨hBefore, -, hAfter⟩ := hQuest.around hStates
      exact ⟨hQuest.main, List.forall_mem_append.2 ⟨hBefore, hAfter⟩⟩
  | sameName => exact hQuest
  | @renameState new _ _ state hStates =>
      obtain ⟨hBefore, hState, hAfter⟩ := hQuest.around hStates
      have hRenamed := List.forall_mem_append.2
        ⟨hBefore, List.forall_mem_cons.2 ⟨hState.rename new, hAfter⟩⟩
      refine ⟨fun main hMain => ?_, List.forall_mem_map.2 fun other hMem => ?_⟩
      · obtain ⟨block, hBlock, rfl⟩ := Option.map_eq_some_iff.1 hMain
        exact (hQuest.main block hBlock).redirect state.name new
      · exact (hRenamed other hMem).redirect state.name new
  | block _ hBlock hBlockChanged =>
      exact hQuest.setBlock ((hQuest.block? hBlock).changed hBlockChanged) _

/-! ### Sequences of edits -/

/-- One edit keeps the cached text right exactly if it makes no call that cannot be written. -/
theorem Edit.run_cachedText_iff (hQuest : quest.CachedText schema) (edit : Edit) :
    (edit.run schema quest).CachedText schema ↔ edit.Writable schema quest := by
  obtain ⟨hPrinted, hFault⟩ := Quest.cachedText_iff.1 hQuest
  have hOutcome := edit.run_outcome schema quest
  unfold Edit.run Edit.Writable
  generalize (edit.inPlace schema).run quest = ended at hOutcome ⊢
  cases hOutcome with
  | refused hApply =>
      refine ⟨fun _ edited quest' hDone => ?_, fun _ => hQuest⟩
      rw [hApply] at hDone
      cases hDone
  | done hApply =>
      rw [Quest.cachedText_iff]
      constructor
      · rintro ⟨-, hCalls⟩ edited quest' hDone
        rw [hApply] at hDone
        cases hDone
        exact hCalls
      · exact fun hWritable => ⟨hPrinted.changed (Edit.apply_changed hApply), hWritable _ _ hApply⟩
  | stopped hApply _ hUnwritable =>
      rw [Quest.cachedText_iff]
      rcases hUnwritable with hBefore | ⟨hFinish, hLeft⟩
      · rw [hFault] at hBefore
        cases hBefore
      · constructor
        · rintro ⟨-, hCalls⟩
          rw [hCalls] at hLeft
          cases hLeft
        · intro hWritable
          rw [hWritable _ _ hApply] at hFinish
          cases hFinish

/-- Along a sequence of edits the cached text is right all the time exactly if every edit, where it
comes, makes no call that cannot be written. -/
theorem Quest.CachedText.runAll_iff (hQuest : quest.CachedText schema) (edits : List Edit) :
    (∀ count, (Edit.runAll schema quest (edits.take count)).CachedText schema) ↔
      ∀ (place : Nat) (edit : Edit), edits[place]? = some edit →
        edit.Writable schema (Edit.runAll schema quest (edits.take place)) := by
  induction edits generalizing quest with
  | nil => exact ⟨fun _ place edit hEdit => by simp at hEdit, fun _ count => by simpa⟩
  | cons edit edits ih =>
      constructor
      · intro hCached place other hOther
        have hFirst : (edit.run schema quest).CachedText schema := hCached 1
        cases place with
        | zero =>
            obtain rfl : edit = other := Option.some.inj hOther
            exact (Edit.run_cachedText_iff hQuest edit).1 hFirst
        | succ place => exact (ih hFirst).1 (fun count => hCached (count + 1)) place other hOther
      · intro hWritable count
        cases count with
        | zero => exact hQuest
        | succ count =>
            have hFirst := (Edit.run_cachedText_iff hQuest edit).2 (hWritable 0 edit rfl)
            exact (ih hFirst).2 (fun place => hWritable (place + 1)) count

/-- However a quest was obtained, its cached text is right; and along a sequence of edits, failed ones
included, every call stays cached as it is written exactly if no edit makes a call that cannot be
written. One that does has changed the call before it fails, and leaves it with the text from
before. -/
theorem Quest.Obtained.runAll_cachedText_iff (schema : Schema) (quest : Quest)
    (hQuest : quest.Obtained schema) (edits : List Edit) :
    (∀ count, (Edit.runAll schema quest (edits.take count)).CachedText schema) ↔
      ∀ (place : Nat) (edit : Edit), edits[place]? = some edit →
        edit.Writable schema (Edit.runAll schema quest (edits.take place)) :=
  hQuest.cachedText.runAll_iff edits

/-- A rule and an action that follow a renamed state, an argument that is written, and two edits
that fail: there is no second action, and the name of the new state is taken. After them an integer
with too many digits is written to the rule, which keeps the text from before. -/
theorem Quest.Obtained.runAll_cachedText_iff_sample :
    let quest : Quest :=
      { Quest.blank 7 with
        states := [⟨"A", "", [⟨"Goto", [.quoted "A"], "Goto(\"A\");"⟩],
          [⟨"Done", [.int 1], "A", "Done(1) goto A"⟩]⟩] }
    let edits : List Edit := [.renameState "A" "B 1", .setActionParam (.state 0) 1 0 .null,
      .setRuleParam (.state (-1)) 0 0 (.string "x"), .addState (some "B 1")]
    let long : Edit := .setRuleParam (.state 0) 0 0 (.number (.int (tenPow Integer.maxDigits)))
    quest.Obtained Schema.empty ∧
      (Edit.runAll Schema.empty quest edits).states =
        [⟨"B 1", "", [⟨"Goto", [.quoted "B 1"], "Goto(\"B 1\");"⟩],
          [⟨"Done", [.quoted "x"], "B 1", "Done(\"x\") goto \"B 1\""⟩]⟩] ∧
      (∀ count, (Edit.runAll Schema.empty quest (edits.take count)).CachedText Schema.empty) ∧
      ¬∀ count, (Edit.runAll Schema.empty quest ((edits ++ [long]).take count)).CachedText
        Schema.empty := by
  intro quest edits long
  have hParse : Quest.parse Schema.empty 7 "state A \x7b Goto(\"A\") Done(1) goto A \x7d" =
      .ok (quest, [.unknownAction 1 "Goto", .unknownRule 1 "Done"]) := by decide +kernel
  have hQuest : quest.Obtained Schema.empty := .parsed hParse
  refine ⟨hQuest, by decide +kernel, ?_, ?_⟩
  · refine (Quest.Obtained.runAll_cachedText_iff Schema.empty quest hQuest edits).2 ?_
    rintro (_ | _ | _ | _ | place) edit hEdit <;> cases hEdit <;> decide +kernel
  · rw [Quest.Obtained.runAll_cachedText_iff Schema.empty quest hQuest (edits ++ [long])]
    intro hWritable
    exact absurd (hWritable 4 long rfl) (by decide +kernel)

end

end QuestScript

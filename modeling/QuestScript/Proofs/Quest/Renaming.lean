import QuestScript.Proofs.Quest.Redirecting
import QuestScript.Proofs.Quest.References
import Mathlib.Data.List.Nodup
/-!
Renaming a state. Every reference to it follows, so the flow of the quest is the same graph with one
node under another name, and the checks find the same references at fault. That is, unless a reference
stops the renaming half-way.

The names of states do not repeat here: with two states of one name only the first is renamed, but
all references follow it.
-/

namespace QuestScript

/-- A name after one name has been replaced by another. -/
def renamed (old new name : String) : String := if name = old then new else name

/-- The transition with one node under another name. -/
def Transition.rename (old new : String) (edge : Transition) : Transition :=
  { edge with source := renamed old new edge.source, target := renamed old new edge.target }

/-- The reference that is at fault, of a warning about one. -/
def Warning.target? : Warning → Option String
  | .danglingAction _ _ target => some target
  | .danglingRule _ _ target => some target
  | .danglingRandom _ target => some target
  | _ => none

/-- The names that the rules and the actions of a block refer to. -/
def State.references (state : State) : List String :=
  state.rules.map Rule.goto ++ state.actions.filterMap Action.navigationTarget?

/-- The names that a quest refers to, in the main block, the states and the random blocks. -/
def Quest.references (quest : Quest) : List String :=
  quest.blocks.flatMap State.references ++
    quest.random.flatMap fun block => block.targets.map RandomTarget.state

/-- The state under its new name, with its references pointing to the new name. -/
def State.rename (schema : Schema) (old new : String) (state : State) : State :=
  { state.redirect schema old new with name := renamed old new state.name }

/-- The quest with a state and all references to it under the new name. -/
def Quest.renamed (schema : Schema) (old new : String) (quest : Quest) : Quest :=
  { quest with
    states := quest.states.map (State.rename schema old new)
    main := quest.main.map (State.redirect schema old new)
    random := quest.random.map (RandomBlock.redirect old new) }

section

variable {schema : Schema} {old new : String}

@[simp] theorem renamed_old : renamed old new old = new := if_pos rfl

/-- Another name is kept by a renaming. -/
theorem renamed_of_ne {name : String} (hName : name ≠ old) : renamed old new name = name :=
  if_neg hName

/-- No two names become one, but for the new name itself. -/
theorem renamed_mem_map (old : String) {names : List String} {name : String}
    (hNew : new ∉ names) (hName : name ≠ new) :
    renamed old new name ∈ names.map (renamed old new) ↔ name ∈ names := by
  constructor
  · intro hMem
    obtain ⟨other, hOther, hEq⟩ := List.mem_map.1 hMem
    by_cases hOld : name = old <;> by_cases hOtherOld : other = old
    · rwa [hOld, ← hOtherOld]
    · rw [hOld, renamed_old, renamed_of_ne hOtherOld] at hEq
      exact absurd (hEq ▸ hOther) hNew
    · rw [hOtherOld, renamed_old, renamed_of_ne hOld] at hEq
      exact absurd hEq.symm hName
    · rw [renamed_of_ne hOld, renamed_of_ne hOtherOld] at hEq
      rwa [← hEq]
  · exact List.mem_map_of_mem

/-! ### The references of a block -/

/-- A redirected rule has the renamed target, whichever target it had. -/
theorem Rule.redirect_goto (rule : Rule) :
    (rule.redirect schema old new).goto = QuestScript.renamed old new rule.goto := by
  unfold Rule.redirect QuestScript.renamed
  split <;> rfl

theorem Rule.redirect_type (rule : Rule) : (rule.redirect schema old new).type = rule.type := by
  unfold Rule.redirect
  split <;> rfl

theorem Action.redirect_type (action : Action) :
    (action.redirect schema old new).type = action.type := by
  unfold Action.redirect
  split <;> rfl

/-- The target of an action follows, if it names the renamed state. -/
theorem Action.redirect_navigationTarget? (action : Action) :
    (action.redirect schema old new).navigationTarget? =
      action.navigationTarget?.map (QuestScript.renamed old new) := by
  unfold Action.redirect
  split
  · next hTarget =>
      have hNavigation : isNavigation action.type = true := by
        by_contra hNot
        simp [Action.navigationTarget?, hNot] at hTarget
      rw [hTarget, Option.map_some, renamed_old]
      simp [Action.navigationTarget?, Action.refresh, hNavigation, Param.quoted, Param.valueText]
  · next hTarget =>
      cases hFound : action.navigationTarget? with
      | none => rfl
      | some target =>
          have hNe : target ≠ old := by
            rintro rfl
            exact hTarget hFound
          rw [Option.map_some, renamed_of_ne hNe]

/-! ### The renamed quest -/

/-- Where one item at most passes a test, the first one that does is every one that does. -/
theorem replaceFirst_eq_map {α : Type} {test : α → Bool} {change : α → α} {items : List α}
    (hOnce : items.Pairwise fun left right => test left = true → test right = false) :
    replaceFirst test (fun item => [change item]) items =
      items.map fun item => if test item then change item else item := by
  induction items with
  | nil => rfl
  | cons item items ih =>
      obtain ⟨hFirst, hRest⟩ := List.pairwise_cons.1 hOnce
      rw [replaceFirst, List.map_cons]
      split
      · next hTest =>
          have hOthers : (items.map fun item => if test item then change item else item) = items :=
            (List.map_congr_left fun other hMem => by rw [hFirst other hMem hTest]; rfl).trans
              (List.map_id items)
          rw [hOthers]
          rfl
      · rw [ih hRest]

/-- Where no two states have one name, the name is written to the state that has it. -/
theorem Quest.withNewName_states {quest : Quest} (hNames : quest.stateNames.Nodup) :
    (quest.withNewName old new).states =
      quest.states.map fun state => { state with name := QuestScript.renamed old new state.name } := by
  have hOnce : quest.states.Pairwise fun left right =>
      decide (left.name = old) = true → decide (right.name = old) = false := by
    refine (List.pairwise_map.1 hNames).imp fun {left right} hDistinct hLeft => ?_
    rw [decide_eq_true_eq] at hLeft
    rw [decide_eq_false_iff_not, ← hLeft]
    exact hDistinct.symm
  rw [withNewName]
  dsimp only
  rw [replaceFirst_eq_map hOnce]
  refine List.map_congr_left fun state _ => ?_
  by_cases hName : state.name = old
  · simp [hName]
  · simp [hName, renamed_of_ne]

/-- The renamed quest is the one with the new name, its references redirected. -/
theorem Quest.redirect_withNewName (schema : Schema) {quest : Quest}
    (hNames : quest.stateNames.Nodup) :
    (quest.withNewName old new).redirect schema old new = quest.renamed schema old new := by
  rw [Quest.redirect, withNewName_states hNames, List.map_map]
  rfl

/-- Renaming a state that there is, to a name that no state has, gives the renamed quest. -/
theorem Quest.renameState_eq_ok (schema : Schema) {quest : Quest}
    (hNames : quest.stateNames.Nodup) (hOld : old ∈ quest.stateNames)
    (hNew : new ∉ quest.stateNames) :
    ∃ state, quest.renameState schema old new = .ok (state, quest.renamed schema old new) := by
  have hFound : (quest.state? old).isSome = true := (quest.state?_isSome old).2 hOld
  have hFree : ¬(quest.state? new).isSome = true := fun hTaken =>
    hNew ((quest.state?_isSome new).1 hTaken)
  have hNe : new ≠ old := fun hEq => hNew (hEq ▸ hOld)
  obtain ⟨state, hState⟩ := Option.isSome_iff_exists.1 hFound
  refine ⟨({ state with name := new } : State).redirect schema old new, ?_⟩
  rw [← redirect_withNewName schema hNames]
  simp only [Quest.renameState, hState, if_neg hNe, if_neg hFree]
  rfl

/-- Renaming it in place gives the renamed quest too, or it is stopped after the name was written. -/
theorem Quest.run_renameState (schema : Schema) {quest : Quest}
    (hNames : quest.stateNames.Nodup) (hOld : old ∈ quest.stateNames)
    (hNew : new ∉ quest.stateNames) :
    (quest.renameFault? schema old new = none →
      ∃ state, (InPlace.renameState schema old new).run quest =
        .ok state (quest.renamed schema old new)) ∧
    ∀ error, quest.renameFault? schema old new = some error →
      ∃ left, (InPlace.renameState schema old new).run quest = .error error left ∧
        left.stateNames = quest.stateNames.map (QuestScript.renamed old new) := by
  have hNe : new ≠ old := fun hEq => hNew (hEq ▸ hOld)
  obtain ⟨state, hRename⟩ := Quest.renameState_eq_ok schema hNames hOld hNew
  have hEnds := InPlace.renameState_ends schema old new quest
  rw [hRename, if_neg hNe] at hEnds
  generalize (InPlace.renameState schema old new).run quest = ended at hEnds ⊢
  cases hEnds with
  | refused hOutcome => cases hOutcome
  | done hOutcome hFault =>
      cases hOutcome
      refine ⟨fun _ => ⟨_, rfl⟩, fun error hError => ?_⟩
      rw [hFault] at hError
      cases hError
  | stopped hOutcome hFault hLeft =>
      refine ⟨fun hNone => ?_, fun error hError => ?_⟩
      · rw [hFault] at hNone
        cases hNone
      · obtain rfl := Option.some.inj (hFault.symm.trans hError)
        refine ⟨_, rfl, hLeft.names.trans ?_⟩
        rw [Quest.stateNames, withNewName_states hNames, List.map_map, Quest.stateNames, List.map_map]
        rfl

/-- The names of states follow a renaming in their places. -/
theorem Quest.renamed_stateNames (quest : Quest) :
    (quest.renamed schema old new).stateNames =
      quest.stateNames.map (QuestScript.renamed old new) := by
  simp [Quest.renamed, Quest.stateNames, State.rename, Function.comp_def]

/-- What is known of the renamed quest is what was known, under the new name. -/
theorem Quest.renamed_knowsTarget {quest : Quest} (hOld : old ∈ quest.stateNames)
    (hNew : new ∉ quest.stateNames) {target : String} (hTarget : target ≠ new) :
    (quest.renamed schema old new).knowsTarget (QuestScript.renamed old new target) =
      quest.knowsTarget target := by
  have hMem := renamed_mem_map old hNew hTarget
  rw [Bool.eq_iff_iff]
  simp only [Quest.knowsTarget, Quest.renamed_stateNames, Bool.or_eq_true, decide_eq_true_eq,
    List.contains_iff_mem, hMem]
  by_cases hName : target = old
  · rw [hName]
    exact ⟨fun _ => Or.inr hOld, fun _ => Or.inr hOld⟩
  · rw [renamed_of_ne hName]

/-! ### The same flow -/

variable {quest : Quest}

/-- Neither name is empty, so a reference is so after the renaming exactly if it was. -/
theorem renamed_isEmpty (hOld : old ≠ "") (hNew : new ≠ "") (name : String) :
    (QuestScript.renamed old new name).isEmpty = name.isEmpty := by
  unfold QuestScript.renamed
  split
  · next hName =>
      rw [hName, Bool.eq_iff_iff, String.isEmpty_iff, String.isEmpty_iff]
      exact ⟨fun hEmpty => absurd hEmpty hNew, fun hEmpty => absurd hEmpty hOld⟩
  · rfl

/-- The edge of a rule has its nodes renamed, provided that the rule did not lead to the new name
before. Such an edge would come to life. -/
theorem Quest.renamed_ruleEdge? (hOld : old ∈ quest.stateNames) (hNew : new ∉ quest.stateNames)
    (hEnd : old ≠ endNode) (state : State) {rule : Rule} (hGoto : rule.goto ≠ new) :
    (quest.renamed schema old new).ruleEdge? (state.rename schema old new)
        (rule.redirect schema old new) =
      (quest.ruleEdge? state rule).map (Transition.rename old new) := by
  have hMem := renamed_mem_map old hNew hGoto
  simp only [Quest.ruleEdge?, Quest.ruleNode?, Rule.redirect_goto, Rule.redirect_type,
    Quest.renamed_stateNames, List.contains_iff_mem, hMem]
  by_cases hKnown : rule.goto ∈ quest.stateNames
  · simp [hKnown, Transition.rename, State.rename]
  · have hName : rule.goto ≠ old := fun hEq => hKnown (hEq ▸ hOld)
    rw [if_neg hKnown, if_neg hKnown, renamed_of_ne hName]
    split
    · simp [Transition.rename, State.rename, renamed_of_ne hEnd.symm]
    · rfl

/-- The edge of an action has its nodes renamed, under the same proviso. -/
theorem Quest.renamed_actionEdge? (hNew : new ∉ quest.stateNames) (hOldEmpty : old ≠ "")
    (hNewEmpty : new ≠ "") (hEnd : old ≠ endNode) (state : State) {action : Action}
    (hTarget : action.navigationTarget? ≠ some new) :
    (quest.renamed schema old new).actionEdge? (state.rename schema old new)
        (action.redirect schema old new) =
      (quest.actionEdge? state action).map (Transition.rename old new) := by
  simp only [Quest.actionEdge?, Action.redirect_type, Action.redirect_navigationTarget?]
  split
  · simp [Transition.rename, State.rename, renamed_of_ne hEnd.symm]
  · cases hFound : action.navigationTarget? with
    | none => rfl
    | some target =>
        have hNe : target ≠ new := by
          rintro rfl
          exact hTarget hFound
        have hMem := renamed_mem_map old hNew hNe
        have hSame : (quest.renamed schema old new).stateNames.contains
            (QuestScript.renamed old new target) = quest.stateNames.contains target := by
          rw [Bool.eq_iff_iff, Quest.renamed_stateNames, List.contains_iff_mem,
            List.contains_iff_mem, hMem]
        simp only [Option.map_some, renamed_isEmpty hOldEmpty hNewEmpty, hSame]
        split
        · rfl
        · rfl

/-- A state that does not refer to the new name does so with none of its rules and none of its
actions. -/
theorem State.notMem_references {state : State} (hState : new ∉ state.references) :
    (∀ rule ∈ state.rules, rule.goto ≠ new) ∧
      ∀ action ∈ state.actions, action.navigationTarget? ≠ some new := by
  rw [State.references, List.mem_append, not_or] at hState
  refine ⟨fun rule hMem hEq => hState.1 (List.mem_map.2 ⟨rule, hMem, hEq⟩), ?_⟩
  exact fun action hMem hEq => hState.2 (List.mem_filterMap.2 ⟨action, hMem, hEq⟩)

/-- A quest that does not refer to the new name does so with no block and no random target. -/
theorem Quest.notMem_references (hReferences : new ∉ quest.references) :
    (∀ block ∈ quest.blocks, new ∉ block.references) ∧
      ∀ block ∈ quest.random, ∀ target ∈ block.targets, target.state ≠ new := by
  rw [Quest.references, List.mem_append, not_or] at hReferences
  refine ⟨fun block hMem hRef => hReferences.1 (List.mem_flatMap.2 ⟨block, hMem, hRef⟩), ?_⟩
  exact fun block hMem target hTarget hEq => hReferences.2
    (List.mem_flatMap.2 ⟨block, hMem, List.mem_map.2 ⟨target, hTarget, hEq⟩⟩)

/-- The transitions after a renaming are those before it with their nodes renamed, in the same
order. -/
theorem Quest.renamed_transitions (hOld : old ∈ quest.stateNames) (hNew : new ∉ quest.stateNames)
    (hOldEmpty : old ≠ "") (hNewEmpty : new ≠ "") (hEnd : old ≠ endNode)
    (hReferences : new ∉ quest.references) :
    (quest.renamed schema old new).transitions =
      quest.transitions.map (Transition.rename old new) := by
  have hBlocks := (Quest.notMem_references hReferences).1
  rw [Quest.transitions, Quest.transitions, List.map_flatMap]
  change (quest.states.map (State.rename schema old new)).flatMap _ = _
  rw [List.flatMap_map]
  refine List.flatMap_congr fun state hState => ?_
  have hBlock : new ∉ state.references := hBlocks state (List.mem_append_right _ hState)
  obtain ⟨hRules, hActions⟩ := State.notMem_references hBlock
  simp only [Quest.edgesFrom, State.rename, State.redirect_rules, State.redirect_actions]
  rw [List.map_append, List.filterMap_map, List.filterMap_map, List.map_filterMap,
    List.map_filterMap]
  congr 1
  · exact List.filterMap_congr fun rule hMem =>
      Quest.renamed_ruleEdge? hOld hNew hEnd state (hRules rule hMem)
  · exact List.filterMap_congr fun action hMem =>
      Quest.renamed_actionEdge? hNew hOldEmpty hNewEmpty hEnd state (hActions action hMem)

/-! ### The same references at fault -/

/-- A name that is not known is not that of the renamed state, so it stays. -/
theorem Quest.renamed_of_unknown (hOld : old ∈ quest.stateNames) {target : String}
    (hUnknown : quest.knowsTarget target = false) :
    QuestScript.renamed old new target = target := by
  apply renamed_of_ne
  rintro rfl
  simp [Quest.knowsTarget, hOld] at hUnknown

/-- The fault of an action stays: what it names is known under the new names exactly if it was. -/
theorem Quest.renamed_danglingAction? (hOld : old ∈ quest.stateNames)
    (hNew : new ∉ quest.stateNames) (hOldEmpty : old ≠ "") (hNewEmpty : new ≠ "")
    (block block' : State) {action : Action} (hTarget : action.navigationTarget? ≠ some new) :
    ((quest.renamed schema old new).danglingAction? block'
        (action.redirect schema old new)).map Warning.target? =
      (quest.danglingAction? block action).map Warning.target? := by
  simp only [Quest.danglingAction?, Action.redirect_navigationTarget?]
  cases hFound : action.navigationTarget? with
  | none => rfl
  | some target =>
      have hNe : target ≠ new := by
        rintro rfl
        exact hTarget hFound
      simp only [Option.map_some, renamed_isEmpty hOldEmpty hNewEmpty,
        Quest.renamed_knowsTarget hOld hNew hNe]
      split
      · rfl
      · next hUnknown =>
          rw [Bool.not_eq_true, Bool.or_eq_false_iff] at hUnknown
          rw [Quest.renamed_of_unknown hOld hUnknown.2]
          rfl

/-- A rule is dangling after a renaming just if it was before. The name of its block may have
changed in the warning. -/
theorem Quest.renamed_danglingRule? (hOld : old ∈ quest.stateNames) (hNew : new ∉ quest.stateNames)
    (hOldEmpty : old ≠ "") (hNewEmpty : new ≠ "") (block block' : State) {rule : Rule}
    (hGoto : rule.goto ≠ new) :
    ((quest.renamed schema old new).danglingRule? block'
        (rule.redirect schema old new)).map Warning.target? =
      (quest.danglingRule? block rule).map Warning.target? := by
  simp only [Quest.danglingRule?, Rule.redirect_goto, renamed_isEmpty hOldEmpty hNewEmpty,
    Quest.renamed_knowsTarget hOld hNew hGoto]
  split
  · rfl
  · next hUnknown =>
      rw [Bool.not_eq_true, Bool.or_eq_false_iff] at hUnknown
      rw [Quest.renamed_of_unknown hOld hUnknown.2]
      rfl

/-- A random target is dangling after a renaming just if it was before. -/
theorem Quest.renamed_danglingTarget? (hOld : old ∈ quest.stateNames)
    (hNew : new ∉ quest.stateNames) (block block' : RandomBlock) {target : RandomTarget}
    (hTarget : target.state ≠ new) :
    ((quest.renamed schema old new).danglingTarget? block'
        (target.redirect old new)).map Warning.target? =
      (quest.danglingTarget? block target).map Warning.target? := by
  have hState : (target.redirect old new).state = QuestScript.renamed old new target.state := by
    unfold RandomTarget.redirect QuestScript.renamed
    split <;> rfl
  simp only [Quest.danglingTarget?, hState, Quest.renamed_knowsTarget hOld hNew hTarget]
  split
  · rfl
  · next hUnknown =>
      rw [Bool.not_eq_true] at hUnknown
      rw [Quest.renamed_of_unknown hOld hUnknown]
      rfl

/-- The faults of a block stay, whatever name the block has. -/
theorem Quest.renamed_danglingIn (hOld : old ∈ quest.stateNames) (hNew : new ∉ quest.stateNames)
    (hOldEmpty : old ≠ "") (hNewEmpty : new ≠ "") {block block' : State}
    (hActions : block'.actions = block.actions.map (Action.redirect schema old new))
    (hRules : block'.rules = block.rules.map (Rule.redirect schema old new))
    (hBlock : new ∉ block.references) :
    ((quest.renamed schema old new).danglingIn block').map Warning.target? =
      (quest.danglingIn block).map Warning.target? := by
  obtain ⟨hGotos, hTargets⟩ := State.notMem_references hBlock
  rw [Quest.danglingIn, Quest.danglingIn, hActions, hRules, List.map_append, List.map_append,
    List.filterMap_map, List.filterMap_map, List.map_filterMap, List.map_filterMap,
    List.map_filterMap, List.map_filterMap]
  congr 1
  · exact List.filterMap_congr fun action hMem => Quest.renamed_danglingAction? hOld hNew hOldEmpty
      hNewEmpty block block' (hTargets action hMem)
  · exact List.filterMap_congr fun rule hMem => Quest.renamed_danglingRule? hOld hNew hOldEmpty
      hNewEmpty block block' (hGotos rule hMem)

/-- What is the same for a block and for its renamed form is the same for the blocks of a quest and
for those of the renamed one. -/
theorem Quest.renamed_flatMap_blocks {α : Type} {before after : State → List α}
    (hBlock : ∀ block ∈ quest.blocks, ∀ name,
      after { block.redirect schema old new with name } = before block) :
    (quest.renamed schema old new).blocks.flatMap after = quest.blocks.flatMap before := by
  have hRenamed : (quest.renamed schema old new).blocks =
      quest.main.toList.map (State.redirect schema old new) ++
        quest.states.map (State.rename schema old new) := by
    rw [Quest.blocks, Quest.renamed, Option.toList_map]
  rw [hRenamed, Quest.blocks, List.flatMap_append, List.flatMap_append, List.flatMap_map,
    List.flatMap_map]
  congr 1
  · exact List.flatMap_congr fun block hMem =>
      hBlock block (List.mem_append_left _ hMem) block.name
  · exact List.flatMap_congr fun block hMem =>
      hBlock block (List.mem_append_right _ hMem) (QuestScript.renamed old new block.name)

/-- The warnings about targets are those from before with their blocks renamed. None is new and
none is gone. -/
theorem Quest.renamed_danglingGotos (hOld : old ∈ quest.stateNames)
    (hNew : new ∉ quest.stateNames) (hOldEmpty : old ≠ "") (hNewEmpty : new ≠ "")
    (hReferences : new ∉ quest.references) :
    (quest.renamed schema old new).danglingGotos.map Warning.target? =
      quest.danglingGotos.map Warning.target? := by
  obtain ⟨hBlocks, hRandom⟩ := Quest.notMem_references hReferences
  rw [Quest.danglingGotos, Quest.danglingGotos, List.map_append, List.map_append, List.map_flatMap,
    List.map_flatMap, List.map_flatMap, List.map_flatMap]
  congr 1
  · exact Quest.renamed_flatMap_blocks fun block hMem name =>
      Quest.renamed_danglingIn hOld hNew hOldEmpty hNewEmpty rfl rfl (hBlocks block hMem)
  · change (quest.random.map (RandomBlock.redirect old new)).flatMap _ = _
    rw [List.flatMap_map]
    refine List.flatMap_congr fun block hMem => ?_
    change ((block.targets.map (RandomTarget.redirect old new)).filterMap _).map _ = _
    rw [List.filterMap_map, List.map_filterMap, List.map_filterMap]
    exact List.filterMap_congr fun target hTarget =>
      Quest.renamed_danglingTarget? hOld hNew block _ (hRandom block hMem target hTarget)

/-- As many rules lead nowhere as before. -/
theorem Quest.renamed_emptyGotos (hOldEmpty : old ≠ "") (hNewEmpty : new ≠ "") :
    (quest.renamed schema old new).emptyGotos.length = quest.emptyGotos.length := by
  have hSame : (quest.renamed schema old new).emptyGotos.map (fun _ => ()) =
      quest.emptyGotos.map (fun _ => ()) := by
    rw [Quest.emptyGotos, Quest.emptyGotos, List.map_flatMap, List.map_flatMap]
    refine Quest.renamed_flatMap_blocks fun block _ name => ?_
    rw [State.redirect_rules, List.filter_map]
    have hTest : ((fun rule => rule.goto.isEmpty) ∘ Rule.redirect schema old new) =
        fun rule : Rule => rule.goto.isEmpty := by
      funext rule
      rw [Function.comp_apply, Rule.redirect_goto, renamed_isEmpty hOldEmpty hNewEmpty]
    rw [hTest, List.map_map, List.map_map, List.map_map]
    rfl
  simpa only [List.length_map] using congrArg List.length hSame

/-! ### Targets that are found -/

/-- A renaming that nothing stops has taken the target of every action as text. -/
theorem State.targetFault?_of_redirectFault? {state : State}
    (hFault : state.redirectFault? schema old new = none) : state.targetFault? = none := by
  rw [State.redirectFault?, Option.or_eq_none_iff, List.findSome?_eq_none_iff,
    List.findSome?_eq_none_iff] at hFault
  rw [State.targetFault?, List.findSome?_eq_none_iff]
  intro action hMem
  have hAction := hFault.2 action hMem
  unfold Action.redirectFault? at hAction
  split at hAction
  · cases hAction
  · assumption

/-- The new target is a text. -/
theorem Action.targetFault?_redirect {action : Action} (hFault : action.targetFault? = none) :
    (action.redirect schema old new).targetFault? = none := by
  unfold Action.redirect
  split
  · unfold Action.targetFault?
    split <;> rfl
  · exact hFault

/-- Redirecting puts text in place of an argument, so it adds no target that is too long. -/
theorem State.targetFault?_redirect {state : State} (hFault : state.targetFault? = none) :
    (state.redirect schema old new).targetFault? = none := by
  rw [State.targetFault?, List.findSome?_eq_none_iff] at hFault ⊢
  exact List.forall_mem_map.2 fun action hMem => Action.targetFault?_redirect (hFault action hMem)

/-- Where nothing stops a renaming, the targets are found before and after it. -/
theorem Quest.targetFaults_of_renameFault? (hFault : quest.renameFault? schema old new = none) :
    (∀ block ∈ quest.blocks, block.TargetsFit) ∧
      ∀ block ∈ (quest.renamed schema old new).blocks, block.TargetsFit := by
  simp only [← State.targetFault?_eq_none_iff]
  rw [Quest.renameFault?, Option.or_eq_none_iff, List.findSome?_eq_none_iff,
    List.findSome?_eq_none_iff] at hFault
  have hMain (block : State) (hMem : block ∈ quest.main.toList) : block.targetFault? = none :=
    State.targetFault?_of_redirectFault? (hFault.2 block hMem)
  have hStates (block : State) (hMem : block ∈ quest.states) : block.targetFault? = none :=
    State.targetFault?_of_redirectFault? (hFault.1 block hMem)
  constructor
  · intro block hMem
    exact (List.mem_append.1 hMem).elim (hMain block) (hStates block)
  · intro block hMem
    rcases List.mem_append.1 hMem with hBlock | hBlock
    · obtain ⟨made, hMade, rfl⟩ := Option.map_eq_some_iff.1 (Option.mem_toList.1 hBlock)
      exact State.targetFault?_redirect (hMain made (Option.mem_toList.2 hMade))
    · obtain ⟨made, hMade, rfl⟩ := List.mem_map.1 hBlock
      exact State.targetFault?_redirect (hStates made hMade)

/-- Renaming a state that there is, to a name that nothing has or refers to, gives the flow under
the new name: the same transitions in the same order, with the name replaced on both sides. The
references at fault are the same in the same order, and as many rules as before lead nowhere. All that
can be found before and after, if no reference stops the renaming; if one does, it fails when the state
has its new name already. -/
theorem Quest.renameState_preserves_flow (schema : Schema) (quest : Quest) (old new : String)
    (hNames : quest.stateNames.Nodup) (hOld : old ∈ quest.stateNames)
    (hNew : new ∉ quest.stateNames) (hOldEmpty : old ≠ "") (hNewEmpty : new ≠ "")
    (hEnd : old ≠ endNode) (hReferences : new ∉ quest.references) :
    (quest.renameFault? schema old new = none →
      ∃ state quest' edges dangling dangling',
        (InPlace.renameState schema old new).run quest = .ok state quest' ∧
        quest.findTransitions = .ok edges ∧
        quest'.findTransitions = .ok (edges.map (Transition.rename old new)) ∧
        quest.findDangling = .ok dangling ∧ quest'.findDangling = .ok dangling' ∧
        dangling'.map Warning.target? = dangling.map Warning.target? ∧
        quest'.emptyGotos.length = quest.emptyGotos.length) ∧
    ∀ error, quest.renameFault? schema old new = some error →
      ∃ left, (InPlace.renameState schema old new).run quest = .error error left ∧
        left.stateNames = quest.stateNames.map (QuestScript.renamed old new) := by
  obtain ⟨hDone, hStopped⟩ := Quest.run_renameState schema hNames hOld hNew
  refine ⟨fun hFault => ?_, hStopped⟩
  obtain ⟨state, hRun⟩ := hDone hFault
  obtain ⟨hBefore, hAfter⟩ := Quest.targetFaults_of_renameFault? hFault
  have hEdges : (quest.renamed schema old new).transitions =
      quest.transitions.map (Transition.rename old new) :=
    Quest.renamed_transitions hOld hNew hOldEmpty hNewEmpty hEnd hReferences
  have hStates (quest : Quest) (hFit : ∀ block ∈ quest.blocks, block.TargetsFit) :
      ∀ state ∈ quest.states, state.TargetsFit :=
    fun state hMem => hFit state (List.mem_append_right _ hMem)
  exact ⟨state, quest.renamed schema old new, _, _, _, hRun,
    Quest.findTransitions_eq_ok (hStates _ hBefore),
    hEdges ▸ Quest.findTransitions_eq_ok (hStates _ hAfter), Quest.findDangling_eq_ok hBefore,
    Quest.findDangling_eq_ok hAfter,
    Quest.renamed_danglingGotos hOld hNew hOldEmpty hNewEmpty hReferences,
    Quest.renamed_emptyGotos hOldEmpty hNewEmpty⟩

/-- A state named like a number, that an action names by the number, that the main block names, and
that a random block names. Its own references to a state that there is not stay. With an argument of too
many digits beside a reference, the renaming stops there. -/
theorem Quest.renameState_preserves_flow_sample :
    let quest : Quest :=
      { Quest.blank 1 with
        states := [⟨"7", "", [⟨"Goto", [.int 7], ""⟩, ⟨"End", [], ""⟩],
          [⟨"Always", [], "Gone", ""⟩, ⟨"Always", [], "", ""⟩]⟩]
        main := some ⟨"Main", "", [⟨"SetState", [.quoted "7"], ""⟩], [⟨"Always", [], "7", ""⟩]⟩
        random := [⟨"Pick", [⟨"7", 1⟩]⟩] }
    let long : Quest :=
      { Quest.blank 1 with
        states := [⟨"7", "", [], [⟨"Always", [.int (tenPow Integer.maxDigits)], "7", ""⟩]⟩] }
    (quest.stateNames.Nodup ∧ "7" ∈ quest.stateNames ∧ "Last" ∉ quest.stateNames ∧
      "Last" ∉ quest.references) ∧
    (∃ state quest' dangling',
      (InPlace.renameState Schema.empty "7" "Last").run quest = .ok state quest' ∧
      quest'.findTransitions = .ok [⟨"Last", "Last", "Goto", .action, false⟩,
        ⟨"Last", "__END__", "End", .finish, false⟩] ∧
      quest'.findDangling = .ok dangling' ∧ dangling'.map Warning.target? = [some "Gone"] ∧
      quest'.emptyGotos.length = 1) ∧
    (long.stateNames.Nodup ∧ "7" ∈ long.stateNames ∧ "Last" ∉ long.stateNames ∧
      "Last" ∉ long.references) ∧
    ∃ left, (InPlace.renameState Schema.empty "7" "Last").run long =
        .error (.unwritten .toText) left ∧ left.stateNames = ["Last"] := by
  intro quest long
  have hNames : quest.stateNames.Nodup := by decide
  have hOld : "7" ∈ quest.stateNames := by decide
  have hNew : "Last" ∉ quest.stateNames := by decide
  have hReferences : "Last" ∉ quest.references := by decide
  have hLongNames : long.stateNames.Nodup := by decide
  have hLongOld : "7" ∈ long.stateNames := by decide
  have hLongNew : "Last" ∉ long.stateNames := by decide
  have hLongReferences : "Last" ∉ long.references := by decide
  have hFault : quest.renameFault? Schema.empty "7" "Last" = none := by decide +kernel
  have hLongFault : long.renameFault? Schema.empty "7" "Last" = some (.unwritten .toText) := by
    decide +kernel
  have hFlow := Quest.renameState_preserves_flow Schema.empty quest "7" "Last" hNames hOld hNew
    (by decide) (by decide) (by decide) hReferences
  have hLong := Quest.renameState_preserves_flow Schema.empty long "7" "Last" hLongNames hLongOld
    hLongNew (by decide) (by decide) (by decide) hLongReferences
  refine ⟨⟨hNames, hOld, hNew, hReferences⟩, ?_, ⟨hLongNames, hLongOld, hLongNew, hLongReferences⟩,
    hLong.2 _ hLongFault⟩
  obtain ⟨state, quest', edges, dangling, dangling', hRun, hEdges, hEdges', hDangling, hDangling',
    hTargets, hEmpty⟩ := hFlow.1 hFault
  have hFound : quest.findTransitions = .ok [⟨"7", "7", "Goto", .action, false⟩,
      ⟨"7", "__END__", "End", .finish, false⟩] := by decide +kernel
  have hGone : quest.findDangling = .ok [.danglingRule "7" "Always" "Gone"] := by decide +kernel
  rw [hFound] at hEdges
  rw [hGone] at hDangling
  cases hEdges
  cases hDangling
  exact ⟨state, quest', dangling', hRun, hEdges', hDangling', hTargets, hEmpty⟩

end

end QuestScript

import QuestScript.Quest.Flow
import QuestScript.Proofs.Number.Limit
import Mathlib.Algebra.GroupWithZero.Nat
import Mathlib.Data.List.Perm.Basic
/-!
References between states. The transitions of a quest and the warnings about its states are found by
three separate passes. Together they say one thing of each rule, and one thing of each action that
names a state or ends the quest: no reference is left out, and none is counted twice.

No state may have the empty name here: a rule without a target would both lead to it and be warned
of. And the passes that look for what actions name take it as text, so they fail where it is an integer
with too many digits.
-/

namespace QuestScript

/-- What is said of a reference: a transition, or a warning. -/
inductive Finding where
  | edge (transition : Transition)
  | warning (text : Warning)
deriving DecidableEq, Repr

def Warning.isOfRule : Warning → Bool
  | .danglingRule .. => true
  | .emptyGoto .. => true
  | _ => false

def Finding.isOfRule : Finding → Bool
  | .edge transition => transition.kind = .rule
  | .warning text => text.isOfRule

/-- The integers by which actions of a block name states have few enough digits. -/
def State.TargetsFit (state : State) : Prop :=
  ∀ action ∈ state.actions, isNavigation action.type = true →
    ∀ n : Int, action.params.head? = some (.int n) → Integer.fits n = true

/-- Looking for the target of an action fails just at a navigation whose first argument is an
integer with too many digits. -/
theorem Action.targetFault?_eq_none_iff {action : Action} :
    action.targetFault? = none ↔ isNavigation action.type = true →
      ∀ n : Int, action.params.head? = some (.int n) → Integer.fits n = true := by
  unfold Action.targetFault?
  split
  · next hType =>
      cases action.params.head? with
      | none => simp
      | some param => cases param <;> simp [hType, Param.valueFault?, Integer.textFault?_eq_none_iff]
  · next hType => simp [hType]

theorem Action.targetFault?_eq_some {action : Action} {fault : Integer.Oversize}
    (hFault : action.targetFault? = some fault) : fault = .toText := by
  unfold Action.targetFault? at hFault
  split at hFault
  · obtain ⟨param, -, hParam⟩ := Option.bind_eq_some_iff.1 hFault
    cases param with
    | text value bare => cases hParam
    | int n => exact Integer.textFault?_eq_some hParam
  · cases hFault

/-- The targets of a block can be looked for when none of its actions has a target that cannot be
made a text. -/
theorem State.targetFault?_eq_none_iff {state : State} :
    state.targetFault? = none ↔ state.TargetsFit := by
  rw [State.targetFault?, List.findSome?_eq_none_iff]
  exact forall₂_congr fun action _ => Action.targetFault?_eq_none_iff

instance (state : State) : Decidable state.TargetsFit :=
  decidable_of_iff _ State.targetFault?_eq_none_iff

namespace Quest

/-- The one thing to be said of a rule. -/
def ruleFinding (quest : Quest) (state : State) (rule : Rule) : Finding :=
  if rule.goto ∈ quest.stateNames then
    .edge ⟨state.name, rule.goto, rule.type, .rule, rule.type ≠ unconditionalRule⟩
  else if rule.goto = endTarget then
    .edge ⟨state.name, endNode, rule.type, .rule, rule.type ≠ unconditionalRule⟩
  else if rule.goto = "" then .warning (.emptyGoto state.name rule.type)
  else .warning (.danglingRule state.name rule.type rule.goto)

/-- The one thing to be said of an action, if it ends the quest or names a state. Nothing is said of
an empty name, or of an action that names the end while no state has that name. -/
def actionFinding? (quest : Quest) (state : State) (action : Action) : Option Finding :=
  if action.type = endAction then some (.edge ⟨state.name, endNode, endAction, .finish, false⟩)
  else
    action.navigationTarget?.bind fun target =>
      if target = "" then none
      else if target ∈ quest.stateNames then
        some (.edge ⟨state.name, target, action.type, .action, false⟩)
      else if target = endTarget then none
      else some (.warning (.danglingAction state.name action.type target))

def ruleFindings (quest : Quest) : List Finding :=
  quest.states.flatMap fun state => state.rules.map (quest.ruleFinding state)

def actionFindings (quest : Quest) : List Finding :=
  quest.states.flatMap fun state => state.actions.filterMap (quest.actionFinding? state)

def emptyRule? (block : State) (rule : Rule) : Option Warning :=
  if rule.goto.isEmpty then some (.emptyGoto block.name rule.type) else none

/-- The warnings about rules without a target of a block. -/
def emptyIn (block : State) : List Warning := block.rules.filterMap (emptyRule? block)

/-- The warnings that are about the states of a quest: those about empty targets, then those about
targets that do not exist. -/
def stateWarnings (quest : Quest) : List Warning :=
  quest.states.flatMap emptyIn ++ quest.states.flatMap quest.danglingIn

/-! ### Targets that are found -/

/-- The targets of some blocks are found exactly if all of them have few enough digits. -/
theorem findSome?_targetFault? (blocks : List State) :
    ((∀ block ∈ blocks, block.TargetsFit) → blocks.findSome? State.targetFault? = none) ∧
      ((∃ block ∈ blocks, ¬block.TargetsFit) →
        blocks.findSome? State.targetFault? = some .toText) := by
  constructor
  · exact fun hAll => List.findSome?_eq_none_iff.2 fun block hMem =>
      State.targetFault?_eq_none_iff.2 (hAll block hMem)
  · rintro ⟨block, hMem, hNot⟩
    cases hFound : blocks.findSome? State.targetFault? with
    | none =>
        have hNone := List.findSome?_eq_none_iff.1 hFound block hMem
        exact absurd (State.targetFault?_eq_none_iff.1 hNone) hNot
    | some fault =>
        obtain ⟨other, -, hOther⟩ := List.exists_of_findSome?_eq_some hFound
        obtain ⟨action, -, hAction⟩ := List.exists_of_findSome?_eq_some hOther
        rw [Action.targetFault?_eq_some hAction]

variable {quest : Quest}

/-- Where all targets of the states fit, the transitions are those of the total function. -/
theorem findTransitions_eq_ok (hFit : ∀ state ∈ quest.states, state.TargetsFit) :
    quest.findTransitions = .ok quest.transitions := by
  rw [findTransitions, (findSome?_targetFault? _).1 hFit, Integer.guarded_none]

/-- One state with a target that does not fit is enough for no transition to be given. -/
theorem findTransitions_eq_error (hNot : ∃ state ∈ quest.states, ¬state.TargetsFit) :
    quest.findTransitions = .error .toText := by
  rw [findTransitions, (findSome?_targetFault? _).2 hNot, Integer.guarded_some]

/-- Where all targets fit, the main block among them, the warnings are those of the total
function. -/
theorem findDangling_eq_ok (hFit : ∀ block ∈ quest.blocks, block.TargetsFit) :
    quest.findDangling = .ok quest.danglingGotos := by
  rw [findDangling, (findSome?_targetFault? _).1 hFit, Integer.guarded_none]

/-- One block with a target that does not fit is enough for no warning to be given. -/
theorem findDangling_eq_error (hNot : ∃ block ∈ quest.blocks, ¬block.TargetsFit) :
    quest.findDangling = .error .toText := by
  rw [findDangling, (findSome?_targetFault? _).2 hNot, Integer.guarded_some]

/-! ### The warnings block by block -/

variable (quest) in
/-- The warnings about empty targets are those of the main block and then those of the states. -/
theorem emptyGotos_eq : quest.emptyGotos =
    quest.main.toList.flatMap emptyIn ++ quest.states.flatMap emptyIn := by
  have hBlock (block : State) :
      ((block.rules.filter fun rule => rule.goto.isEmpty).map fun rule =>
        Warning.emptyGoto block.name rule.type) = emptyIn block := by
    rw [emptyIn, ← List.filterMap_eq_map, List.filterMap_filter]
    rfl
  simp only [emptyGotos, hBlock, blocks, List.flatMap_append]

variable (quest) in
/-- The warnings about missing targets are those of the main block, of the states, and of the
random blocks. -/
theorem danglingGotos_eq : quest.danglingGotos =
    quest.main.toList.flatMap quest.danglingIn ++ quest.states.flatMap quest.danglingIn ++
      quest.random.flatMap fun block => block.targets.filterMap (quest.danglingTarget? block) := by
  rw [danglingGotos, blocks, List.flatMap_append]

/-! ### One finding for each reference -/

theorem endTarget_ne_empty : endTarget ≠ "" := by decide

/-- Of a rule one of three things is said. -/
theorem ruleFinding_split (hNames : "" ∉ quest.stateNames) (state : State) (rule : Rule) :
    [quest.ruleFinding state rule] =
      (quest.ruleEdge? state rule).toList.map .edge ++
        ((emptyRule? state rule).toList ++ (quest.danglingRule? state rule).toList).map
          .warning := by
  simp only [ruleFinding, ruleEdge?, ruleNode?, emptyRule?, danglingRule?, knowsTarget,
    List.contains_iff_mem, String.isEmpty_iff]
  generalize rule.goto = target
  by_cases hKnown : target ∈ quest.stateNames
  · have hTarget : target ≠ "" := fun hEmpty => hNames (hEmpty ▸ hKnown)
    simp [hKnown, hTarget]
  · by_cases hEnd : target = endTarget
    · subst hEnd
      simp [hKnown, endTarget_ne_empty]
    · by_cases hTarget : target = ""
      · subst hTarget
        simp [hKnown, hEnd]
      · simp [hKnown, hEnd, hTarget]

/-- What is said of an action is its transition or its warning. It has at most one of them. -/
theorem actionFinding?_split (state : State) (action : Action) :
    (quest.actionFinding? state action).toList =
      (quest.actionEdge? state action).toList.map .edge ++
        (quest.danglingAction? state action).toList.map .warning := by
  unfold actionFinding? actionEdge? danglingAction?
  by_cases hFinish : action.type = endAction
  · have hNone : action.navigationTarget? = none := by
      rw [Action.navigationTarget?, hFinish]
      exact if_neg (by decide)
    rw [if_pos hFinish, if_pos hFinish, hNone]
    rfl
  · rw [if_neg hFinish, if_neg hFinish]
    cases hTarget : action.navigationTarget? with
    | none => rfl
    | some target =>
        by_cases hEmpty : target = ""
        · simp [hEmpty]
        · by_cases hKnown : target ∈ quest.stateNames
          · simp [hEmpty, hKnown, knowsTarget]
          · by_cases hEnd : target = endTarget
            · subst hEnd
              simp [hKnown, knowsTarget]
            · simp [hEmpty, hKnown, hEnd, knowsTarget]

/-! ### All findings -/

/-- Where each item gives what two passes give of it, the two passes give the same in all. -/
theorem flatMap_perm_of_split {α β : Type} {whole left right : α → List β} {items : List α}
    (hSplit : ∀ item, (whole item).Perm (left item ++ right item)) :
    (items.flatMap whole).Perm (items.flatMap left ++ items.flatMap right) :=
  (List.Perm.flatMap_left items fun item _ => hSplit item).trans
    (List.flatMap_append_perm items left right).symm

/-- What is said of the rules of a state are their transitions and their warnings, no matter in
which order. No state may have the empty name, or an empty target would be both. -/
theorem map_ruleFinding_perm (hNames : "" ∉ quest.stateNames) (state : State) :
    (state.rules.map (quest.ruleFinding state)).Perm
      ((state.rules.filterMap (quest.ruleEdge? state)).map .edge ++
        (emptyIn state ++ state.rules.filterMap (quest.danglingRule? state)).map .warning) := by
  have hWarnings : (state.rules.flatMap fun rule =>
      (emptyRule? state rule).toList ++ (quest.danglingRule? state rule).toList).Perm
        (emptyIn state ++ state.rules.filterMap (quest.danglingRule? state)) := by
    rw [emptyIn, List.filterMap_eq_flatMap_toList, List.filterMap_eq_flatMap_toList]
    exact flatMap_perm_of_split fun _ => .refl _
  rw [List.map_eq_flatMap]
  refine (flatMap_perm_of_split fun rule => .of_eq (ruleFinding_split hNames state rule)).trans ?_
  rw [← List.map_flatMap, ← List.map_flatMap, ← List.filterMap_eq_flatMap_toList]
  exact (hWarnings.map _).append_left _

/-- What is said of the actions of a state are their transitions and their warnings. -/
theorem filterMap_actionFinding?_perm (state : State) :
    (state.actions.filterMap (quest.actionFinding? state)).Perm
      ((state.actions.filterMap (quest.actionEdge? state)).map .edge ++
        (state.actions.filterMap (quest.danglingAction? state)).map .warning) := by
  simp only [List.filterMap_eq_flatMap_toList, List.map_flatMap]
  exact flatMap_perm_of_split fun action => .of_eq (actionFinding?_split state action)

/-- The transitions out of a state and the warnings about it are its findings. -/
theorem findings_perm_of_state (hNames : "" ∉ quest.stateNames) (state : State) :
    (state.rules.map (quest.ruleFinding state) ++
      state.actions.filterMap (quest.actionFinding? state)).Perm
        ((quest.edgesFrom state).map .edge ++
          (emptyIn state ++ quest.danglingIn state).map .warning) := by
  refine ((map_ruleFinding_perm hNames state).append
    (filterMap_actionFinding?_perm state)).trans (List.perm_iff_count.2 fun finding => ?_)
  simp only [edgesFrom, danglingIn, List.map_append, List.count_append]
  omega

/-- All that is said of the states of a quest: its transitions and the warnings about its states. -/
def said (quest : Quest) : List Finding :=
  quest.transitions.map .edge ++ quest.stateWarnings.map .warning

/-- Everything said of the states is said of one rule or one action, and nothing is said twice. -/
theorem findings_perm_said (hNames : "" ∉ quest.stateNames) :
    (quest.ruleFindings ++ quest.actionFindings).Perm quest.said := by
  have hStates : (quest.ruleFindings ++ quest.actionFindings).Perm
      (quest.states.flatMap fun state => (quest.edgesFrom state).map .edge ++
        (emptyIn state ++ quest.danglingIn state).map .warning) :=
    (List.flatMap_append_perm quest.states _ _).trans
      (List.Perm.flatMap_left _ fun state _ => findings_perm_of_state hNames state)
  refine hStates.trans ((flatMap_perm_of_split fun _ => .refl _).trans ?_)
  rw [← List.map_flatMap, ← List.map_flatMap]
  exact ((flatMap_perm_of_split fun _ => .refl _).map _).append_left _

/-- Only rules have findings of the kind of a rule, so findings of rules and of actions are never
confused. -/
theorem isOfRule_of_mem_ruleFindings {finding : Finding} (hMem : finding ∈ quest.ruleFindings) :
    finding.isOfRule = true := by
  obtain ⟨state, -, hRule⟩ := List.mem_flatMap.1 hMem
  obtain ⟨rule, -, rfl⟩ := List.mem_map.1 hRule
  unfold ruleFinding
  repeat' split
  all_goals rfl

theorem isOfRule_of_mem_actionFindings {finding : Finding}
    (hMem : finding ∈ quest.actionFindings) : finding.isOfRule = false := by
  obtain ⟨state, -, hAction⟩ := List.mem_flatMap.1 hMem
  obtain ⟨action, -, hFinding⟩ := List.mem_filterMap.1 hAction
  unfold actionFinding? at hFinding
  split at hFinding
  · cases hFinding
    rfl
  · obtain ⟨target, -, hTarget⟩ := Option.bind_eq_some_iff.1 hFinding
    repeat' split at hTarget
    all_goals cases hTarget
    all_goals rfl

/-- A transition leads from a state to a state or to the end. -/
theorem transition_ends {transition : Transition} (hMem : transition ∈ quest.transitions) :
    transition.source ∈ quest.stateNames ∧
      (transition.target ∈ quest.stateNames ∨ transition.target = endNode) := by
  obtain ⟨state, hState, hFrom⟩ := List.mem_flatMap.1 hMem
  have hSource : state.name ∈ quest.stateNames := List.mem_map_of_mem hState
  rcases List.mem_append.1 hFrom with hRule | hAction
  · obtain ⟨rule, -, hEdge⟩ := List.mem_filterMap.1 hRule
    obtain ⟨target, hNode, rfl⟩ := Option.map_eq_some_iff.1 hEdge
    refine ⟨hSource, ?_⟩
    unfold ruleNode? at hNode
    split at hNode
    · next hKnown =>
        cases hNode
        exact Or.inl (List.contains_iff_mem.1 hKnown)
    · split at hNode
      · cases hNode
        exact Or.inr rfl
      · cases hNode
  · obtain ⟨action, -, hEdge⟩ := List.mem_filterMap.1 hAction
    unfold actionEdge? at hEdge
    split at hEdge
    · cases hEdge
      exact ⟨hSource, Or.inr rfl⟩
    · split at hEdge
      · split at hEdge
        · next hKnown =>
            cases hEdge
            rw [Bool.and_eq_true] at hKnown
            exact ⟨hSource, Or.inl (List.contains_iff_mem.1 hKnown.2)⟩
        · cases hEdge
      · cases hEdge

/-- The findings about rules are one for each rule, and the others are one for each action that ends
the quest or names a state. -/
theorem said_filter_perm (hNames : "" ∉ quest.stateNames) :
    (quest.said.filter Finding.isOfRule).Perm quest.ruleFindings ∧
      (quest.said.filter fun finding => !finding.isOfRule).Perm quest.actionFindings := by
  have hSaid := (findings_perm_said hNames).symm
  have hRules : quest.ruleFindings.filter (fun finding => !finding.isOfRule) = [] :=
    List.filter_eq_nil_iff.2 fun finding hMem => by simp [isOfRule_of_mem_ruleFindings hMem]
  have hActions : quest.actionFindings.filter Finding.isOfRule = [] :=
    List.filter_eq_nil_iff.2 fun finding hMem => by simp [isOfRule_of_mem_actionFindings hMem]
  constructor
  · refine (hSaid.filter _).trans (.of_eq ?_)
    rw [List.filter_append, hActions, List.append_nil, List.filter_eq_self]
    exact fun finding => isOfRule_of_mem_ruleFindings
  · refine (hSaid.filter _).trans (.of_eq ?_)
    rw [List.filter_append, hRules, List.nil_append, List.filter_eq_self]
    exact fun finding hMem => by simp [isOfRule_of_mem_actionFindings hMem]

/-- Every rule has one finding, so these are as many as the rules. -/
theorem length_ruleFindings (quest : Quest) :
    quest.ruleFindings.length = (quest.states.map fun state => state.rules.length).sum := by
  simp [ruleFindings, List.length_flatMap]

theorem isOfRule_of_mem_emptyIn {states : List State} {warning : Warning}
    (hMem : warning ∈ states.flatMap emptyIn) : warning.isOfRule = true := by
  obtain ⟨state, -, hWarning⟩ := List.mem_flatMap.1 hMem
  obtain ⟨rule, -, hEmpty⟩ := List.mem_filterMap.1 hWarning
  unfold emptyRule? at hEmpty
  split at hEmpty
  · cases hEmpty
    rfl
  · cases hEmpty

/-- The transitions and the warnings share all references among them. The warnings are those about
the main block, those about the states and those about random blocks; of what is said about the
states, there is one thing for each rule, and one for each action that ends the quest or names a
state. Each transition leads from a state to a state or to the end. So rules are as many as there
are transitions and warnings about rules.

That is, if the integers by which actions name states have few enough digits. With one in a state that
has more, neither the transitions nor the warnings about missing states are found, and with one in the
main block the warnings are not. -/
theorem references_settled (quest : Quest) (hNames : "" ∉ quest.stateNames) :
    ((∀ block ∈ quest.blocks, block.TargetsFit) →
      quest.findTransitions = .ok quest.transitions ∧
      quest.findDangling = .ok quest.danglingGotos ∧
      quest.emptyGotos =
        quest.main.toList.flatMap emptyIn ++ quest.states.flatMap emptyIn ∧
      quest.danglingGotos =
        quest.main.toList.flatMap quest.danglingIn ++ quest.states.flatMap quest.danglingIn ++
          quest.random.flatMap (fun block =>
            block.targets.filterMap (quest.danglingTarget? block)) ∧
      (quest.said.filter Finding.isOfRule).Perm quest.ruleFindings ∧
      (quest.said.filter fun finding => !finding.isOfRule).Perm quest.actionFindings ∧
      (∀ transition ∈ quest.transitions, transition.source ∈ quest.stateNames ∧
        (transition.target ∈ quest.stateNames ∨ transition.target = endNode)) ∧
      quest.transitions.countP (fun transition => transition.kind = .rule) +
          (quest.states.flatMap quest.danglingIn).countP Warning.isOfRule +
          (quest.states.flatMap emptyIn).length =
        (quest.states.map fun state => state.rules.length).sum) ∧
    ((∃ state ∈ quest.states, ¬state.TargetsFit) → quest.findTransitions = .error .toText) ∧
    ((∃ block ∈ quest.blocks, ¬block.TargetsFit) → quest.findDangling = .error .toText) := by
  refine ⟨fun hFit => ?_, findTransitions_eq_error, findDangling_eq_error⟩
  obtain ⟨hRules, hActions⟩ := said_filter_perm hNames
  refine ⟨findTransitions_eq_ok fun state hMem => hFit state (List.mem_append_right _ hMem),
    findDangling_eq_ok hFit, quest.emptyGotos_eq, quest.danglingGotos_eq, hRules, hActions,
    fun transition => transition_ends, ?_⟩
  have hEmpty : (quest.states.flatMap emptyIn).countP Warning.isOfRule =
      (quest.states.flatMap emptyIn).length :=
    List.countP_eq_length.2 fun warning => isOfRule_of_mem_emptyIn
  have hLength := hRules.length_eq
  rw [length_ruleFindings, ← List.countP_eq_length_filter, said, stateWarnings, List.countP_append,
    List.countP_map, List.countP_map, List.countP_append] at hLength
  rw [← hLength, ← hEmpty, Nat.add_assoc, Nat.add_comm (List.countP _ (quest.states.flatMap _))]
  rfl

/-- A rule of each kind, twice with a target that is not there, and actions that end the quest, name
a state, and name none. The state named `End` is not there, so nothing is said of the action that
names it, and the rule that does ends the quest. With an action that names a state by too long a number
nothing is found. -/
theorem references_settled_sample :
    let quest : Quest :=
      { Quest.blank 7 with
        states :=
          [⟨"A", "", [⟨"Goto", [.quoted "B"], ""⟩, ⟨"Goto", [.quoted "End"], ""⟩, ⟨"End", [], ""⟩],
            [⟨"Always", [], "B", ""⟩, ⟨"Done", [], "End", ""⟩, ⟨"Done", [], "", ""⟩]⟩,
            ⟨"B", "", [⟨"SetState", [.int 1], ""⟩], [⟨"Done", [], "C", ""⟩, ⟨"Done", [], "C", ""⟩]⟩] }
    let long : Quest :=
      { Quest.blank 7 with states := [⟨"A", "", [⟨"Goto", [.int (tenPow Integer.maxDigits)], ""⟩], []⟩] }
    "" ∉ quest.stateNames ∧ (∀ block ∈ quest.blocks, block.TargetsFit) ∧
      quest.ruleFindings.length = 5 ∧ quest.actionFindings.length = 3 ∧
      quest.findTransitions = .ok quest.transitions ∧
      quest.findDangling = .ok quest.danglingGotos ∧
      (quest.said.filter Finding.isOfRule).Perm quest.ruleFindings ∧
      (quest.said.filter fun finding => !finding.isOfRule).Perm quest.actionFindings ∧
      "" ∉ long.stateNames ∧ (∃ state ∈ long.states, ¬state.TargetsFit) ∧
      long.findTransitions = .error .toText := by
  intro quest long
  have hNames : "" ∉ quest.stateNames := by decide
  have hFit : ∀ block ∈ quest.blocks, block.TargetsFit := by decide +kernel
  have hLongNames : "" ∉ long.stateNames := by decide
  have hLong : ∃ state ∈ long.states, ¬state.TargetsFit := by decide +kernel
  obtain ⟨hEdges, hDangling, -, -, hRules, hActions, -⟩ := (references_settled quest hNames).1 hFit
  exact ⟨hNames, hFit, by decide +kernel, by decide +kernel, hEdges, hDangling, hRules, hActions,
    hLongNames, hLong, (references_settled long hLongNames).2.1 hLong⟩

end Quest

end QuestScript

import QuestScript.Proofs.Quest.Renaming
import QuestScript.Proofs.Quest.Same
/-!
Renaming a state back. A renaming moves the references to the old name and nothing else. So where
nothing had the new name before, the references to it are those that were moved, and the renaming back
moves exactly them.

An action may refer to a state by a number. Such a reference comes back as text, so those to the
renamed state are taken to be texts here. And each renaming may be stopped half-way, by a reference that
cannot be written.
-/

namespace QuestScript

/-! ### What a renaming moves -/

/-- A rule and what a renaming makes of it: one that leads to the old name leads to the new one, and
every other one stays. -/
inductive Rule.Follows (old new : String) : Rule → Rule → Prop where
  | stays (rule : Rule) (hGoto : rule.goto ≠ old) : Follows old new rule rule
  | moves (type : String) (params : List Param) (rawText rawText' : String) :
      Follows old new ⟨type, params, old, rawText⟩ ⟨type, params, new, rawText'⟩

/-- An action and what a renaming makes of it: one that goes to the old name goes to the new one, and
every other one stays. -/
inductive Action.Follows (old new : String) : Action → Action → Prop where
  | stays (action : Action) (hTarget : action.navigationTarget? ≠ some old) :
      Follows old new action action
  | moves {type : String} (hType : isNavigation type = true) {param : Param}
      (hParam : param.valueText = old) (params : List Param) (rawText rawText' : String) :
      Follows old new ⟨type, param :: params, rawText⟩ ⟨type, .quoted new :: params, rawText'⟩

/-- A block and what a renaming makes of it, the name of the block aside. -/
structure State.Follows (old new : String) (state state' : State) : Prop where
  description : state'.description = state.description
  actions : List.Forall₂ (Action.Follows old new) state.actions state'.actions
  rules : List.Forall₂ (Rule.Follows old new) state.rules state'.rules

/-- A target of a random block and what a renaming makes of it: one that is the old name becomes the new
one with the weight that it has, and every other one stays. -/
inductive RandomTarget.Follows (old new : String) : RandomTarget → RandomTarget → Prop where
  | stays (target : RandomTarget) (hState : target.state ≠ old) : Follows old new target target
  | moves (weight : Number) : Follows old new ⟨old, weight⟩ ⟨new, weight⟩

/-- A random block and what a renaming makes of it. Its own name is not that of a state. -/
structure RandomBlock.Follows (old new : String) (block block' : RandomBlock) : Prop where
  name : block'.name = block.name
  targets : List.Forall₂ (RandomTarget.Follows old new) block.targets block'.targets

/-- A quest and what a renaming makes of it: the state has the new name, the references to it follow,
and nothing else differs. -/
structure Quest.Renames (old new : String) (quest quest' : Quest) : Prop where
  id : quest'.id = quest.id
  name : quest'.name = quest.name
  version : quest'.version = quest.version
  gates : quest'.gates = quest.gates
  flags : quest'.flags = quest.flags
  extra : quest'.extra = quest.extra
  main : Option.Rel (fun block block' => block'.name = block.name ∧ block.Follows old new block')
    quest.main quest'.main
  states : List.Forall₂ (fun state state' =>
    state'.name = QuestScript.renamed old new state.name ∧ state.Follows old new state')
    quest.states quest'.states
  random : List.Forall₂ (RandomBlock.Follows old new) quest.random quest'.random

section

variable {schema : Schema} {old new : String}

/-- A redirected rule follows the renaming. The relation is stated without the function. -/
theorem Rule.follows_redirect (rule : Rule) : rule.Follows old new (rule.redirect schema old new) := by
  unfold Rule.redirect
  split
  · next hGoto =>
      obtain ⟨type, params, goto, rawText⟩ := rule
      cases hGoto
      exact .moves type params rawText _
  · next hGoto => exact .stays rule hGoto

theorem Action.follows_redirect (action : Action) :
    action.Follows old new (action.redirect schema old new) := by
  unfold Action.redirect
  split
  · next hTarget =>
      obtain ⟨type, params, rawText⟩ := action
      rw [Action.navigationTarget?] at hTarget
      split at hTarget
      · next hType =>
          cases params with
          | nil => cases hTarget
          | cons param params => exact .moves hType (Option.some.inj hTarget) params rawText _
      · cases hTarget
  · next hTarget => exact .stays action hTarget

/-- A list and its image are related item by item, if each item is related to its image. -/
theorem forall₂_map_self {α : Type} {related : α → α → Prop} {change : α → α}
    (hItem : ∀ item, related item (change item)) (items : List α) :
    List.Forall₂ related items (items.map change) :=
  List.forall₂_map_right_iff.2 (List.forall₂_same.2 fun item _ => hItem item)

/-- A redirected state follows the renaming, action by action and rule by rule. -/
theorem State.follows_redirect (state : State) :
    state.Follows old new (state.redirect schema old new) where
  description := rfl
  actions := forall₂_map_self Action.follows_redirect _
  rules := forall₂_map_self Rule.follows_redirect _

/-- The name of the block may change as well. -/
theorem State.follows_rename (state : State) :
    state.Follows old new (state.rename schema old new) where
  description := rfl
  actions := state.follows_redirect.actions
  rules := state.follows_redirect.rules

theorem RandomTarget.follows_redirect (target : RandomTarget) :
    target.Follows old new (target.redirect old new) := by
  unfold RandomTarget.redirect
  split
  · next hState =>
      obtain ⟨state, weight⟩ := target
      cases hState
      exact .moves weight
  · next hState => exact .stays target hState

theorem RandomBlock.follows_redirect (block : RandomBlock) :
    block.Follows old new (block.redirect old new) where
  name := rfl
  targets := forall₂_map_self RandomTarget.follows_redirect _

/-- The renamed quest differs from the quest as a renaming prescribes and in nothing else. -/
theorem Quest.renames_renamed (quest : Quest) :
    quest.Renames old new (quest.renamed schema old new) where
  id := rfl
  name := rfl
  version := rfl
  gates := rfl
  flags := rfl
  extra := rfl
  main := by
    rw [Quest.renamed]
    cases quest.main with
    | none => exact .none
    | some block => exact .some ⟨rfl, block.follows_redirect⟩
  states := forall₂_map_self (fun state => ⟨rfl, state.follows_rename⟩) _
  random := forall₂_map_self RandomBlock.follows_redirect _

/-! ### Moving back -/

theorem renamed_renamed {name : String} (hName : name ≠ new) :
    renamed new old (renamed old new name) = name := by
  by_cases hOld : name = old
  · rw [hOld, renamed_old, renamed_old]
  · rw [renamed_of_ne hOld, renamed_of_ne hName]

/-- A rule that follows a renaming and its reverse has the content it had, unless it led to the
new name before. -/
theorem Rule.Follows.back {rule rule' rule'' : Rule} (hForth : rule.Follows old new rule')
    (hBack : rule'.Follows new old rule'') (hNew : rule.goto ≠ new) :
    rule''.content = rule.content := by
  cases hForth with
  | stays =>
      cases hBack with
      | stays => rfl
      | moves => exact absurd rfl hNew
  | moves =>
      cases hBack with
      | stays _ hGoto => exact absurd rfl hGoto
      | moves => rfl

/-- If the action goes to the name, then its first argument is text. -/
def Action.NamesByText (name : String) (action : Action) : Prop :=
  action.navigationTarget? = some name →
    action.params.head?.map Param.content = some (.quoted name)

instance (name : String) (action : Action) : Decidable (action.NamesByText name) :=
  inferInstanceAs (Decidable (_ → _))

/-- An action that follows both has the content it had. An integer that names a state would come
back as text, hence the condition on it. -/
theorem Action.Follows.back {action action' action'' : Action}
    (hForth : action.Follows old new action') (hBack : action'.Follows new old action'')
    (hNew : action.navigationTarget? ≠ some new) (hText : action.NamesByText old) :
    action''.content = action.content := by
  cases hForth with
  | stays =>
      cases hBack with
      | stays => rfl
      -- the second renaming would move a reference that was to the new name from the start
      | moves hType hParam =>
          refine absurd ?_ hNew
          rw [Action.navigationTarget?, if_pos hType, List.head?_cons, Option.map_some, hParam]
  | @moves type hType param hParam params =>
      have hTarget (first : Param) (text : String) :
          Action.navigationTarget? ⟨type, first :: params, text⟩ = some first.valueText :=
        if_pos hType
      cases hBack with
      | stays _ hAway => exact absurd (hTarget _ _) hAway
      | moves =>
          have hFirst : param.content = .quoted old :=
            Option.some.inj (hText ((hTarget _ _).trans (congrArg some hParam)))
          simp only [Action.content, List.map_cons, hFirst]
          rfl

/-- Two relations that bring the content back item by item bring back that of the list. -/
theorem map_eq_of_forall₂ {α β : Type} {related related' : α → α → Prop} {content : α → β}
    {items items' items'' : List α} (hForth : List.Forall₂ related items items')
    (hBack : List.Forall₂ related' items' items'')
    (hItem : ∀ item ∈ items, ∀ item' item'', related item item' → related' item' item'' →
      content item'' = content item) :
    items''.map content = items.map content := by
  induction hForth generalizing items'' with
  | nil =>
      cases hBack
      rfl
  | cons hFirst _ ih =>
      cases hBack with
      | cons hFirst' hRest' =>
          obtain ⟨hHere, hMore⟩ := List.forall_mem_cons.1 hItem
          rw [List.map_cons, List.map_cons, hHere _ _ hFirst hFirst', ih hRest' hMore]

/-- Two lists related forth and back agree when the items do. -/
theorem eq_of_forall₂ {α : Type} {related related' : α → α → Prop} {items items' items'' : List α}
    (hForth : List.Forall₂ related items items') (hBack : List.Forall₂ related' items' items'')
    (hItem : ∀ item ∈ items, ∀ item' item'', related item item' → related' item' item'' →
      item'' = item) : items'' = items := by
  have hMap : items''.map (fun item => item) = items.map fun item => item :=
    map_eq_of_forall₂ hForth hBack hItem
  simpa using hMap

/-- A state that follows both has the content it had, once its name is known to be back. -/
theorem State.Follows.back {state state' state'' : State} (hForth : state.Follows old new state')
    (hBack : state'.Follows new old state'') (hName : state''.name = state.name)
    (hNew : new ∉ state.references) (hText : ∀ action ∈ state.actions, action.NamesByText old) :
    state''.content = state.content := by
  obtain ⟨hGotos, hTargets⟩ := State.notMem_references hNew
  have hActions : state''.actions.map Action.content = state.actions.map Action.content :=
    map_eq_of_forall₂ hForth.actions hBack.actions fun action hMem _ _ hOut hIn =>
      hOut.back hIn (hTargets action hMem) (hText action hMem)
  have hRules : state''.rules.map Rule.content = state.rules.map Rule.content :=
    map_eq_of_forall₂ hForth.rules hBack.rules fun rule hMem _ _ hOut hIn =>
      hOut.back hIn (hGotos rule hMem)
  simp only [State.content, hName, hBack.description, hForth.description, hActions, hRules]

theorem option_map_eq_of_rel {α β : Type} {related related' : α → α → Prop} {content : α → β}
    {item item' item'' : Option α} (hForth : Option.Rel related item item')
    (hBack : Option.Rel related' item' item'')
    (hItem : ∀ a ∈ item, ∀ b c, related a b → related' b c → content c = content a) :
    item''.map content = item.map content := by
  cases hForth with
  | none =>
      cases hBack
      rfl
  | some hFirst =>
      cases hBack with
      | some hSecond => exact congrArg some (hItem _ rfl _ _ hFirst hSecond)

theorem RandomTarget.Follows.back {target target' target'' : RandomTarget}
    (hForth : target.Follows old new target') (hBack : target'.Follows new old target'')
    (hNew : target.state ≠ new) : target'' = target := by
  cases hForth with
  | stays =>
      cases hBack with
      | stays => rfl
      | moves => exact absurd rfl hNew
  | moves =>
      cases hBack with
      | stays _ hState => exact absurd rfl hState
      | moves => rfl

/-- A random block that follows both is the block it was. -/
theorem RandomBlock.Follows.back {block block' block'' : RandomBlock}
    (hForth : block.Follows old new block') (hBack : block'.Follows new old block'')
    (hNew : ∀ target ∈ block.targets, target.state ≠ new) : block'' = block := by
  have hTargets : block''.targets = block.targets :=
    eq_of_forall₂ hForth.targets hBack.targets fun target hMem _ _ hOut hIn =>
      hOut.back hIn (hNew target hMem)
  obtain ⟨name, targets⟩ := block
  obtain ⟨name'', targets''⟩ := block''
  cases hTargets
  cases hBack.name.trans hForth.name
  rfl

/-- A renaming back undoes a renaming to a name that nothing had or referred to. -/
theorem Quest.Renames.back {quest quest' quest'' : Quest} (hForth : quest.Renames old new quest')
    (hBack : quest'.Renames new old quest'') (hNew : new ∉ quest.stateNames)
    (hReferences : new ∉ quest.references)
    (hText : ∀ block ∈ quest.blocks, ∀ action ∈ block.actions, action.NamesByText old) :
    quest''.content = quest.content := by
  obtain ⟨hBlocks, hRandom⟩ := Quest.notMem_references hReferences
  have hMain : quest''.main.map State.content = quest.main.map State.content := by
    refine option_map_eq_of_rel hForth.main hBack.main ?_
    rintro block hMem block' block'' ⟨hName, hOut⟩ ⟨hName', hIn⟩
    have hBlock : block ∈ quest.blocks := List.mem_append_left _ (Option.mem_toList.2 hMem)
    exact hOut.back hIn (hName'.trans hName) (hBlocks block hBlock) (hText block hBlock)
  have hStates : quest''.states.map State.content = quest.states.map State.content := by
    refine map_eq_of_forall₂ hForth.states hBack.states ?_
    rintro state hMem state' state'' ⟨hName, hOut⟩ ⟨hName', hIn⟩
    have hBlock : state ∈ quest.blocks := List.mem_append_right _ hMem
    have hOther : state.name ≠ new := fun hEq => hNew (List.mem_map.2 ⟨state, hMem, hEq⟩)
    refine hOut.back hIn ?_ (hBlocks state hBlock) (hText state hBlock)
    rw [hName', hName, renamed_renamed hOther]
  have hTargets : quest''.random = quest.random :=
    eq_of_forall₂ hForth.random hBack.random fun block hMem _ _ hOut hIn =>
      hOut.back hIn (hRandom block hMem)
  simp only [Quest.content, hMain, hStates, hTargets, hBack.id, hForth.id, hBack.name, hForth.name,
    hBack.version, hForth.version, hBack.gates, hForth.gates, hBack.flags, hForth.flags,
    hBack.extra, hForth.extra]

/-- No two states get one name. -/
theorem Quest.renamed_stateNames_nodup {quest : Quest} (hNames : quest.stateNames.Nodup)
    (hNew : new ∉ quest.stateNames) : (quest.renamed schema old new).stateNames.Nodup := by
  rw [Quest.renamed_stateNames]
  refine hNames.map_on fun name hName other hOther hEq => ?_
  have hBack (name : String) (hName : name ∈ quest.stateNames) :
      QuestScript.renamed new old (QuestScript.renamed old new name) = name :=
    renamed_renamed fun hEq => hNew (hEq ▸ hName)
  rw [← hBack name hName, hEq, hBack other hOther]

/-- The new name is among the names afterwards, so the reverse renaming finds its state. -/
theorem Quest.new_mem_renamed {quest : Quest} (hOld : old ∈ quest.stateNames) :
    new ∈ (quest.renamed schema old new).stateNames := by
  rw [Quest.renamed_stateNames]
  exact List.mem_map.2 ⟨old, hOld, renamed_old⟩

/-- The old name is free after the renaming. -/
theorem Quest.old_notMem_renamed (quest : Quest) (hNe : old ≠ new) :
    old ∉ (quest.renamed schema old new).stateNames := by
  rw [Quest.renamed_stateNames]
  intro hMem
  obtain ⟨name, -, hEq⟩ := List.mem_map.1 hMem
  by_cases hName : name = old
  · rw [hName, renamed_old] at hEq
    exact hNe hEq.symm
  · rw [renamed_of_ne hName] at hEq
    exact hName hEq

/-- Renaming a state that there is, to a name that nothing has or refers to, changes the name of the
state and the references to it, and nothing else. Renaming it back, under whatever schema, gives a quest
equal to the first, if the actions that go to the state name it by text. Each of the two succeeds exactly
if no reference stops it; if one does, it fails when the name has been written already. -/
theorem Quest.renameState_renameState (schema schema' : Schema) (quest : Quest) (old new : String)
    (hNames : quest.stateNames.Nodup) (hOld : old ∈ quest.stateNames)
    (hNew : new ∉ quest.stateNames) (hReferences : new ∉ quest.references)
    (hText : ∀ block ∈ quest.blocks, ∀ action ∈ block.actions, action.NamesByText old) :
    (quest.renameFault? schema old new = none →
      ∃ state quest', (InPlace.renameState schema old new).run quest = .ok state quest' ∧
        quest.Renames old new quest' ∧
        (quest'.renameFault? schema' new old = none →
          ∃ state' quest'', (InPlace.renameState schema' new old).run quest' = .ok state' quest'' ∧
            quest''.same quest = true) ∧
        ∀ error, quest'.renameFault? schema' new old = some error →
          ∃ left, (InPlace.renameState schema' new old).run quest' = .error error left ∧
            left.stateNames = quest.stateNames) ∧
    ∀ error, quest.renameFault? schema old new = some error →
      ∃ left, (InPlace.renameState schema old new).run quest = .error error left ∧
        left.stateNames = quest.stateNames.map (QuestScript.renamed old new) := by
  have hNe : old ≠ new := fun hEq => hNew (hEq ▸ hOld)
  have hNames' : (quest.renamed schema old new).stateNames.Nodup :=
    Quest.renamed_stateNames_nodup hNames hNew
  obtain ⟨hForth, hStopped⟩ := Quest.run_renameState schema hNames hOld hNew
  obtain ⟨hBack, hStopped'⟩ := Quest.run_renameState schema' hNames' (Quest.new_mem_renamed hOld)
    (quest.old_notMem_renamed hNe)
  refine ⟨fun hFault => ?_, hStopped⟩
  obtain ⟨state, hRun⟩ := hForth hFault
  refine ⟨state, _, hRun, quest.renames_renamed, fun hFault' => ?_, fun error hError => ?_⟩
  · obtain ⟨state', hRun'⟩ := hBack hFault'
    exact ⟨state', _, hRun', Quest.same_of_content_eq
      (quest.renames_renamed.back (Quest.renames_renamed _) hNew hReferences hText)⟩
  · obtain ⟨left, hRun', hLeft⟩ := hStopped' error hError
    refine ⟨left, hRun', hLeft.trans ?_⟩
    rw [Quest.renamed_stateNames, List.map_map]
    refine (List.map_congr_left fun name hMem => ?_).trans (List.map_id _)
    refine renamed_renamed ?_
    rintro rfl
    exact hNew hMem

/-- A state without a name that refers to itself, to another state and to one that there is not, and
that the main block, without quotes, and a random block name. One action names a state by a number. -/
theorem Quest.renameState_renameState_sample :
    let quest : Quest :=
      { Quest.blank 1 with
        states := [⟨"", "", [⟨"Goto", [.text "" true], "old text"⟩, ⟨"Wait", [.int 7], ""⟩,
            ⟨"SetState", [], ""⟩, ⟨"SetState", [.int 7], ""⟩],
          [⟨"Always", [], "", ""⟩, ⟨"Always", [], "End", ""⟩, ⟨"Always", [], "Gone", ""⟩]⟩,
          ⟨"End", "", [], []⟩]
        main := some ⟨"Main", "", [⟨"SetState", [.text "" true], ""⟩], [⟨"Always", [], "", ""⟩]⟩
        random := [⟨"Pick", [⟨"", 1⟩, ⟨"End", 2⟩, ⟨"", 3⟩]⟩] }
    (quest.stateNames.Nodup ∧ "" ∈ quest.stateNames ∧ "Last" ∉ quest.stateNames ∧
      "Last" ∉ quest.references ∧
      ∀ block ∈ quest.blocks, ∀ action ∈ block.actions, action.NamesByText "") ∧
    ∃ state quest', (InPlace.renameState Schema.empty "" "Last").run quest = .ok state quest' ∧
      quest.Renames "" "Last" quest' ∧
      ∃ state' quest'', (InPlace.renameState Schema.empty "Last" "").run quest' =
          .ok state' quest'' ∧
        quest''.same quest = true := by
  intro quest
  have hNames : quest.stateNames.Nodup := by decide
  have hOld : "" ∈ quest.stateNames := by decide
  have hNew : "Last" ∉ quest.stateNames := by decide
  have hReferences : "Last" ∉ quest.references := by decide
  have hText : ∀ block ∈ quest.blocks, ∀ action ∈ block.actions, action.NamesByText "" := by
    decide
  have hFault : quest.renameFault? Schema.empty "" "Last" = none := by decide +kernel
  refine ⟨⟨hNames, hOld, hNew, hReferences, hText⟩, ?_⟩
  obtain ⟨state, quest', hRun, hRenames, hBack, -⟩ :=
    (Quest.renameState_renameState Schema.empty Schema.empty quest "" "Last" hNames hOld hNew
      hReferences hText).1 hFault
  refine ⟨state, quest', hRun, hRenames, hBack ?_⟩
  obtain ⟨renamed, hRenamed⟩ := (Quest.run_renameState Schema.empty hNames hOld hNew).1 hFault
  obtain ⟨-, rfl⟩ := EStateM.Result.ok.inj (hRun.symm.trans hRenamed)
  decide +kernel

end

end QuestScript

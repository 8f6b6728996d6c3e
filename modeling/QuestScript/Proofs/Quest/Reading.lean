import QuestScript.Proofs.Number.Limit
import QuestScript.Quest.Draft
/-!
What one event does to the quest that is being read, and what the events of a script do in turn.
Warnings are left out: no event is taken or refused because of them.
-/

namespace QuestScript

open Script (Arg Call Event Malformed Outline Section Token)

namespace OpenBlock

def opened (block : Section) (opener : Token) : OpenBlock :=
  ⟨block, opener, State.named block.name, false⟩

def describe (text : String) (current : OpenBlock) : OpenBlock :=
  { current with state := { current.state with description := text }, described := true }

def addAction (action : Action) (current : OpenBlock) : OpenBlock :=
  { current with state := { current.state with actions := current.state.actions ++ [action] } }

def addRule (rule : Rule) (current : OpenBlock) : OpenBlock :=
  { current with state := { current.state with rules := current.state.rules ++ [rule] } }

end OpenBlock

/-- The random block that a list of targets makes up. -/
def RandomBlock.ofTargets (name : String) (targets : List (String × Int)) : RandomBlock :=
  ⟨name, targets.map fun (state, weight) => ⟨state, .int weight⟩⟩

/-- A schema lets a call be an action: it does not know its name as that of a rule only. -/
def Schema.AllowsAction (schema : Schema) (name : String) : Prop :=
  schema.rules.contains name = true → schema.actions.contains name = true

instance (schema : Schema) (name : String) : Decidable (schema.AllowsAction name) :=
  inferInstanceAs (Decidable (_ → _))

/-- An event leads from one quest and open block to the next. -/
inductive Takes (schema : Schema) :
    Quest → Option OpenBlock → Event → Quest → Option OpenBlock → Prop where
  | known {quest : Quest} {current : Option OpenBlock} {key : Token} {value : Option Arg}
      {known : Attribute} (hKey : Attribute.ofKey? key.value = some known)
      (hFits : Draft.attributeFault? key value = none) :
      Takes schema quest current (.attr key value) (Draft.setAttribute quest known value) current
  | other {quest : Quest} {current : Option OpenBlock} {key : Token} {value : Option Arg}
      (hKey : Attribute.ofKey? key.value = none)
      (hFits : Draft.attributeFault? key value = none) :
      Takes schema quest current (.attr key value)
        { quest with extra := quest.extra.put key.value (value.map Param.sniff) } current
  | openMain {quest : Quest} {current : Option OpenBlock} {opener : Token}
      (hMain : quest.main = none) :
      Takes schema quest current (.openMain opener) quest (some (.opened .main opener))
  | openState {quest : Quest} {current : Option OpenBlock} {opener : Token} {name : String} :
      Takes schema quest current (.openState opener name) quest
        (some (.opened (.state name) opener))
  | desc {quest : Quest} {current : Option OpenBlock} {keyword : Token} {text : String} :
      Takes schema quest current (.desc keyword text) quest (current.map (.describe text))
  | action {quest : Quest} {current : Option OpenBlock} {call : Call} (hGoto : call.goto = none)
      (hAllowed : schema.AllowsAction call.name.value)
      (hFits : Param.argsFault? call.args (schema.actionSlots call.name.value) = none) :
      Takes schema quest current (.call call) quest
        (current.map (.addAction (Draft.actionOf schema call)))
  | rule {quest : Quest} {current : Option OpenBlock} {call : Call} {target : String}
      (hGoto : call.goto = some target)
      (hFits : Param.argsFault? call.args (schema.ruleSlots call.name.value) = none) :
      Takes schema quest current (.call call) quest
        (current.map (.addRule (Draft.ruleOf schema call target)))
  | closeNone {quest : Quest} : Takes schema quest none .close quest none
  | closeMain {quest : Quest} {current : OpenBlock} (hBlock : current.block = .main) :
      Takes schema quest (some current) .close { quest with main := some current.state } none
  | closeState {quest : Quest} {current : OpenBlock} {name : String}
      (hBlock : current.block = .state name) (hFresh : name ∉ quest.stateNames) :
      Takes schema quest (some current) .close
        { quest with states := quest.states ++ [current.state] } none
  | random {quest : Quest} {current : Option OpenBlock} {opener : Token} {name : String}
      {targets : List (String × Int)} (hFresh : name ∉ quest.random.map RandomBlock.name) :
      Takes schema quest current (.random opener name targets)
        { quest with random := quest.random ++ [.ofTargets name targets] } current

/-- Events lead in turn from one quest and open block to another. -/
inductive Run (schema : Schema) :
    Quest → Option OpenBlock → List Event → Quest → Option OpenBlock → Prop where
  | nil {quest : Quest} {current : Option OpenBlock} : Run schema quest current [] quest current
  | cons {quest quest' quest'' : Quest} {current current' current'' : Option OpenBlock}
      {event : Event} {events : List Event}
      (first : Takes schema quest current event quest' current')
      (rest : Run schema quest' current' events quest'' current'') :
      Run schema quest current (event :: events) quest'' current''

/-- A state is found under a name just if a state has it. The names are those of all states, in
their order. -/
theorem Quest.state?_isSome (quest : Quest) (name : String) :
    (quest.state? name).isSome = true ↔ name ∈ quest.stateNames := by
  simp [Quest.state?, Quest.stateNames, List.find?_isSome]

theorem Quest.random?_isSome (quest : Quest) (name : String) :
    (quest.random? name).isSome = true ↔ name ∈ quest.random.map RandomBlock.name := by
  simp [Quest.random?, List.find?_isSome]

/-! ### Blocks of a quest -/

section Blocks

variable {quest : Quest} {p : State → Prop}

/-- All blocks of a quest are its main block and its states. -/
theorem Quest.forall_mem_blocks : (∀ block ∈ quest.blocks, p block) ↔
    (∀ main ∈ quest.main, p main) ∧ ∀ state ∈ quest.states, p state := by
  simp [Quest.blocks, or_imp, forall_and]

/-- What holds of all blocks holds when the main block is closed, if it holds of that block. -/
theorem Quest.forall_mem_blocks_closeMain (hBlocks : ∀ block ∈ quest.blocks, p block)
    {main : State} (hMain : p main) :
    ∀ block ∈ Quest.blocks { quest with main := some main }, p block := by
  refine Quest.forall_mem_blocks.2 ⟨?_, (Quest.forall_mem_blocks.1 hBlocks).2⟩
  intro block hMem
  cases hMem
  exact hMain

/-- What holds of all blocks holds when a state is closed behind them, if it holds of that state.
-/
theorem Quest.forall_mem_blocks_closeState (hBlocks : ∀ block ∈ quest.blocks, p block)
    {state : State} (hState : p state) :
    ∀ block ∈ Quest.blocks { quest with states := quest.states ++ [state] }, p block := by
  obtain ⟨hMain, hStates⟩ := Quest.forall_mem_blocks.1 hBlocks
  exact Quest.forall_mem_blocks.2
    ⟨hMain, List.forall_mem_append.2 ⟨hStates, List.forall_mem_singleton.2 hState⟩⟩

end Blocks

/-! ### Events -/

@[simp]
theorem Draft.unlessOversize_none (draft : Draft) : unlessOversize none draft = .ok draft := rfl

/-- A check of digits lets a draft through unchanged, or not at all. -/
theorem Draft.unlessOversize_eq_ok {fault? : Option Integer.Oversize} {draft draft' : Draft} :
    unlessOversize fault? draft = .ok draft' ↔ fault? = none ∧ draft = draft' := by
  cases fault? <;> simp [unlessOversize, Except.mapError]

/-- A description changes the open block and the warnings. The quest is as it was until the block
is closed. -/
theorem Draft.describe_eq (draft : Draft) (keyword : Token) (text : String) :
    draft.describe keyword text =
      ⟨draft.quest, draft.current.map (.describe text), (draft.describe keyword text).warnings⟩ := by
  simp only [Draft.describe]
  split <;> rfl

/-- A call with a goto clause is a rule, and one without it an action that is not known as a rule
only. -/
theorem Draft.call_takes {schema : Schema} {draft draft' : Draft} {call : Call}
    (hTake : Draft.call schema draft call = .ok draft') :
    Takes schema draft.quest draft.current (.call call) draft'.quest draft'.current := by
  simp only [Draft.call] at hTake
  split at hTake
  · next target hGoto =>
      obtain ⟨hFits, rfl⟩ := unlessOversize_eq_ok.1 hTake
      have hRule : Takes schema draft.quest draft.current (.call call) draft.quest
          (draft.current.map (.addRule (ruleOf schema call target))) := Takes.rule hGoto hFits
      split <;> exact hRule
  next hGoto =>
  split at hTake
  · next hAction =>
      obtain ⟨hFits, rfl⟩ := unlessOversize_eq_ok.1 hTake
      exact Takes.action hGoto (fun _ => hAction) hFits
  split at hTake
  · cases hTake
  · next hRule =>
      obtain ⟨hFits, rfl⟩ := unlessOversize_eq_ok.1 hTake
      exact Takes.action hGoto (fun hKnown => absurd hKnown hRule) hFits

/-- What closing does to a draft is a step of the relation on quests and open blocks. -/
theorem Draft.close_takes {schema : Schema} {draft draft' : Draft}
    (hTake : draft.close = .ok draft') :
    Takes schema draft.quest draft.current .close draft'.quest draft'.current := by
  simp only [Draft.close] at hTake
  split at hTake
  · next hCurrent =>
      cases hTake
      rw [hCurrent]
      exact Takes.closeNone
  next current hCurrent =>
  rw [hCurrent]
  split at hTake
  · next hBlock =>
      cases hTake
      exact Takes.closeMain hBlock
  next name hBlock =>
  split at hTake
  · cases hTake
  · next hFresh =>
      cases hTake
      exact Takes.closeState hBlock (by rwa [Quest.state?_isSome] at hFresh)

/-- Taking an event leads on as the event says. -/
theorem Draft.take_takes {schema : Schema} {draft draft' : Draft} {event : Event}
    (hTake : draft.take schema event = .ok draft') :
    Takes schema draft.quest draft.current event draft'.quest draft'.current := by
  cases event with
  | attr key value =>
      obtain ⟨hFits, rfl⟩ := unlessOversize_eq_ok.1 hTake
      unfold Draft.takeAttribute
      split
      · next hKey => exact Takes.known hKey hFits
      · next hKey => exact Takes.other hKey hFits
  | openMain opener =>
      simp only [Draft.take] at hTake
      split at hTake
      · cases hTake
      · next hMain =>
          cases hTake
          exact Takes.openMain (by simpa using hMain)
  | openState opener name =>
      cases hTake
      exact Takes.openState
  | desc keyword text =>
      cases hTake
      rw [draft.describe_eq]
      exact Takes.desc
  | call call => exact Draft.call_takes hTake
  | close => exact Draft.close_takes hTake
  | random opener name targets =>
      simp only [Draft.take, Draft.addRandom] at hTake
      split at hTake
      · cases hTake
      · next hFresh =>
          cases hTake
          exact Takes.random (by rwa [Quest.random?_isSome] at hFresh)

/-- What an event leads to is what taking it gives. -/
theorem Takes.take {schema : Schema} {quest quest' : Quest} {current current' : Option OpenBlock}
    {event : Event} (takes : Takes schema quest current event quest' current')
    (warnings : List Warning) :
    ∃ warnings', Draft.take schema ⟨quest, current, warnings⟩ event =
      .ok ⟨quest', current', warnings'⟩ := by
  cases takes with
  | known hKey hFits =>
      exact ⟨_, by rw [Draft.take, hFits, Draft.unlessOversize_none, Draft.takeAttribute, hKey]⟩
  | other hKey hFits =>
      exact ⟨_, by rw [Draft.take, hFits, Draft.unlessOversize_none, Draft.takeAttribute, hKey]; rfl⟩
  | openMain hMain => exact ⟨_, by rw [Draft.take, hMain]; rfl⟩
  | openState => exact ⟨_, rfl⟩
  | @desc _ keyword text =>
      exact ⟨_, congrArg Except.ok (Draft.describe_eq ⟨quest, current, warnings⟩ keyword text)⟩
  | @action _ call hGoto hAllowed hFits =>
      simp only [Draft.take, Draft.call, hGoto, hFits, Draft.unlessOversize_none]
      by_cases hAction : schema.actions.contains call.name.value = true
      · exact ⟨_, by rw [if_pos hAction]; rfl⟩
      · exact ⟨_, by
          rw [if_neg hAction, if_neg fun hRule => hAction (hAllowed hRule)]
          rfl⟩
  | @rule _ call target hGoto hFits =>
      simp only [Draft.take, Draft.call, hGoto, hFits, Draft.unlessOversize_none]
      split <;> exact ⟨_, rfl⟩
  | closeNone => exact ⟨_, rfl⟩
  | closeMain hBlock => exact ⟨_, by simp only [Draft.take, Draft.close, hBlock]; rfl⟩
  | closeState hBlock hFresh =>
      rw [← Quest.state?_isSome] at hFresh
      exact ⟨_, by simp only [Draft.take, Draft.close, hBlock, if_neg hFresh]; rfl⟩
  | random hFresh =>
      rw [← Quest.random?_isSome] at hFresh
      exact ⟨_, by simp only [Draft.take, Draft.addRandom, if_neg hFresh]; rfl⟩

theorem Draft.takeAll_cons (schema : Schema) (draft : Draft) (event : Event)
    (events : List Event) :
    draft.takeAll schema (event :: events) =
      match draft.take schema event with
      | .error fault => .error fault
      | .ok draft' => draft'.takeAll schema events := by
  rw [Draft.takeAll, List.foldlM_cons]
  cases draft.take schema event <;> rfl

/-- The events that a draft has taken make a run of the relation on quests. The warnings are left
out. -/
theorem Draft.takeAll_run {schema : Schema} {draft draft' : Draft} {events : List Event}
    (hTake : draft.takeAll schema events = .ok draft') :
    Run schema draft.quest draft.current events draft'.quest draft'.current := by
  induction events generalizing draft with
  | nil =>
      cases hTake
      exact Run.nil
  | cons event events ih =>
      rw [Draft.takeAll_cons] at hTake
      split at hTake
      · cases hTake
      · next hFirst => exact Run.cons (Draft.take_takes hFirst) (ih hTake)

/-- A run is carried out by a draft, whatever warnings it has already. The two directions together
let proofs about quests forget the warnings. -/
theorem Run.takeAll {schema : Schema} {quest quest' : Quest}
    {current current' : Option OpenBlock} {events : List Event}
    (run : Run schema quest current events quest' current') (warnings : List Warning) :
    ∃ warnings', Draft.takeAll schema ⟨quest, current, warnings⟩ events =
      .ok ⟨quest', current', warnings'⟩ := by
  induction run generalizing warnings with
  | nil => exact ⟨warnings, rfl⟩
  | cons first rest ih =>
      obtain ⟨middle, hFirst⟩ := first.take warnings
      obtain ⟨warnings', hRest⟩ := ih middle
      exact ⟨warnings', by rw [Draft.takeAll_cons, hFirst, ← hRest]⟩

/-- Events lead to one quest only. -/
theorem Run.unique {schema : Schema} {quest quest₁ quest₂ : Quest}
    {current current₁ current₂ : Option OpenBlock} {events : List Event}
    (run₁ : Run schema quest current events quest₁ current₁)
    (run₂ : Run schema quest current events quest₂ current₂) :
    quest₁ = quest₂ ∧ current₁ = current₂ := by
  obtain ⟨_, hTake₁⟩ := run₁.takeAll []
  obtain ⟨_, hTake₂⟩ := run₂.takeAll []
  rw [hTake₁] at hTake₂
  cases hTake₂
  exact ⟨rfl, rfl⟩

/-- An attribute that a quest has a field for changes neither its blocks nor its other attributes. -/
theorem Draft.setAttribute_frame (quest : Quest) (known : Attribute) (value : Option Arg) :
    (setAttribute quest known value).extra = quest.extra ∧
      (setAttribute quest known value).main = quest.main ∧
      (setAttribute quest known value).states = quest.states ∧
      (setAttribute quest known value).random = quest.random ∧
      (setAttribute quest known value).id = quest.id := by
  cases known <;> exact ⟨rfl, rfl, rfl, rfl, rfl⟩

/-- A script that is read has an outline without a fault, all of whose events are taken. The warnings
about missing states come behind those that arise on the way. -/
theorem Quest.parse_eq_ok {schema : Schema} {id : Number} {text : String} {quest : Quest}
    {warnings : List Warning} (hParse : Quest.parse schema id text = .ok (quest, warnings)) :
    ∃ tokens events draft, Script.tokenize text = .ok tokens ∧
      Outline.ofTokens tokens = ⟨events, none⟩ ∧
      (Draft.start id).takeAll schema events = .ok draft ∧ quest = draft.quest ∧
      warnings = draft.warnings ++ draft.quest.danglingGotos := by
  unfold Quest.parse at hParse
  split at hParse
  · cases hParse
  · next tokens hTokens =>
      unfold Quest.ofTokens Quest.ofOutline at hParse
      split at hParse
      · cases hParse
      · next draft hTake =>
          split at hParse
          · cases hParse
          · next hFault =>
              cases hParse
              exact ⟨tokens, _, draft, hTokens, by rw [← hFault], hTake, rfl, rfl⟩

/-- Scripts that can be read, and what they are read as: the tokens have an outline without a
fault, and its events lead from the blank quest to the one that is read. -/
theorem Quest.parse_ok_iff {schema : Schema} {id : Number} {text : String} {quest : Quest} :
    (∃ warnings, Quest.parse schema id text = .ok (quest, warnings)) ↔
      ∃ tokens events current, Script.tokenize text = .ok tokens ∧
        Outline.ofTokens tokens = ⟨events, none⟩ ∧
        Run schema (Quest.blank id) none events quest current := by
  constructor
  · rintro ⟨warnings, hParse⟩
    obtain ⟨tokens, events, draft, hTokens, hOutline, hTake, rfl, -⟩ := Quest.parse_eq_ok hParse
    exact ⟨tokens, events, draft.current, hTokens, hOutline, Draft.takeAll_run hTake⟩
  · rintro ⟨tokens, events, current, hTokens, hOutline, run⟩
    obtain ⟨warnings, hTake⟩ := run.takeAll []
    refine ⟨warnings ++ quest.danglingGotos, ?_⟩
    simp only [Quest.parse, hTokens, Quest.ofTokens, Quest.ofOutline, hOutline]
    change Except.map _ (match Draft.takeAll schema ⟨Quest.blank id, none, []⟩ events with
      | .error fault => .error fault
      | .ok draft => .ok draft) = _
    rw [hTake]
    rfl

end QuestScript

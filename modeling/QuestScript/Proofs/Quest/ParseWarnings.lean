import QuestScript.Proofs.Quest.Accounting
import QuestScript.Proofs.Quest.Writing
/-!
The warnings that come with a script that is read. They are told one by one while the quest is built,
and not looked up in the quest afterwards; still they are exactly those that the quest and the schema
call for. The events of a script are cut into blocks, this time with the descriptions in them, and
both sides are compared with these: the quest has these blocks, and each block has its warnings.
-/

namespace QuestScript

open Script (Call Event EventSpelled Outline Scope ScriptSpelled Section Token)

/-! ### The warnings of a script -/

/-- The warning about a call that the schema does not know. -/
def unknownCall? (schema : Schema) (call : Call) : Option Warning :=
  match call.goto with
  | some _ =>
    if schema.rules.contains call.name.value then none
    else some (.unknownRule call.name.line call.name.value)
  | none =>
    if schema.actions.contains call.name.value then none
    else some (.unknownAction call.name.line call.name.value)

/-- The warning about a description of a block that has one already. -/
def repeatedDesc (block : Section) (desc : Token × String) : Warning :=
  .duplicateDescription desc.1.line block

/-- The warnings that an event gives, where a block may be open. -/
def Script.Event.warnings (schema : Schema) (body : Option Body) : Event → List Warning
  | .attr key _ =>
    if (Attribute.ofKey? key.value).isSome then [] else [.unknownAttribute key.line key.value]
  | .desc keyword text =>
    match body with
    | some body => if body.descs.isEmpty then [] else [repeatedDesc body.block (keyword, text)]
    | none => []
  | .call made => (unknownCall? schema made).toList
  | _ => []

/-- The warnings that events give in turn, where a block may be open before them. -/
def eventWarnings (schema : Schema) (body : Option Body) : List Event → List Warning
  | [] => []
  | event :: events =>
    event.warnings schema body ++ eventWarnings schema (Body.after body event) events

/-- The warnings of a block: one for each call that the schema does not know, and one for each
description but the first. -/
def Body.warnings (schema : Schema) (body : Body) : List Warning :=
  body.calls.filterMap (unknownCall? schema) ++ body.descs.tail.map (repeatedDesc body.block)

section

variable {schema : Schema}

/-- A description adds a warning just if the block has one already. -/
theorem Draft.describe_warnings {draft : Draft} {body : Option Body} (keyword : Token)
    (text : String) (held : Held schema draft.quest draft.current body) :
    (draft.describe keyword text).warnings =
      draft.warnings ++ (Event.desc keyword text).warnings schema body := by
  obtain ⟨quest, current, warnings⟩ := draft
  cases current <;> cases body <;> try exact held.elim
  · exact (List.append_nil _).symm
  · next current body =>
      obtain ⟨hBlock, -, hDescribed, -⟩ := held
      cases hFirst : body.descs.isEmpty with
      | true =>
          simp only [describe, Event.warnings, Option.filter, hDescribed, hFirst]
          exact (List.append_nil _).symm
      | false =>
          simp only [describe, Event.warnings, Option.filter, hDescribed, hFirst]
          rw [← hBlock]
          rfl

/-- A call adds the warning that its name is unknown, if it is, and no other. -/
theorem Draft.call_warnings {draft draft' : Draft} {call : Call}
    (hTake : Draft.call schema draft call = .ok draft') :
    draft'.warnings = draft.warnings ++ (unknownCall? schema call).toList := by
  simp only [Draft.call] at hTake
  split at hTake
  · next target hGoto =>
      obtain ⟨_, rfl⟩ := unlessOversize_eq_ok.1 hTake
      simp only [unknownCall?, hGoto]
      split
      · exact (List.append_nil _).symm
      · rfl
  · next hGoto =>
      simp only [unknownCall?, hGoto]
      split at hTake
      · next hKnown =>
          obtain ⟨_, rfl⟩ := unlessOversize_eq_ok.1 hTake
          rw [if_pos hKnown]
          exact (List.append_nil _).symm
      · next hUnknown =>
          rw [if_neg hUnknown]
          split at hTake
          · cases hTake
          · obtain ⟨_, rfl⟩ := unlessOversize_eq_ok.1 hTake
            rfl

/-- Closing a block warns of nothing. What it could complain of has been refused before. -/
theorem Draft.close_warnings {draft draft' : Draft} (hTake : draft.close = .ok draft') :
    draft'.warnings = draft.warnings := by
  simp only [Draft.close] at hTake
  split at hTake
  · cases hTake
    rfl
  · split at hTake
    · cases hTake
      rfl
    · split at hTake
      · cases hTake
      · cases hTake
        rfl

/-- A random block warns of nothing, so its targets are looked at only in the end. -/
theorem Draft.addRandom_warnings {draft draft' : Draft} {opener : Token} {name : String}
    {targets : List (String × Int)} (hTake : draft.addRandom opener name targets = .ok draft') :
    draft'.warnings = draft.warnings := by
  simp only [Draft.addRandom] at hTake
  split at hTake
  · cases hTake
  · cases hTake
    rfl

/-- Taking an event adds the warnings that the event gives, and no others. -/
theorem Draft.take_warnings {draft draft' : Draft} {event : Event} {body : Option Body}
    (hTake : draft.take schema event = .ok draft')
    (held : Held schema draft.quest draft.current body) :
    draft'.warnings = draft.warnings ++ event.warnings schema body := by
  cases event with
  | attr key value =>
      obtain ⟨_, rfl⟩ := unlessOversize_eq_ok.1 hTake
      simp only [Draft.takeAttribute, Event.warnings]
      cases Attribute.ofKey? key.value with
      | none => rfl
      | some known => exact (List.append_nil _).symm
  | openMain opener =>
      simp only [Draft.take] at hTake
      split at hTake
      · cases hTake
      · cases hTake
        exact (List.append_nil _).symm
  | openState opener name =>
      cases hTake
      exact (List.append_nil _).symm
  | desc keyword text =>
      cases hTake
      exact describe_warnings keyword text held
  | call call => exact call_warnings hTake
  | close => exact (close_warnings hTake).trans (List.append_nil _).symm
  | random opener name targets => exact (addRandom_warnings hTake).trans (List.append_nil _).symm

/-- All warnings of a script before the last check are those of its events, each raised in the
block it stands in. -/
theorem Draft.takeAll_warnings {draft draft' : Draft} {events : List Event} {body : Option Body}
    (hTake : draft.takeAll schema events = .ok draft')
    (held : Held schema draft.quest draft.current body) :
    draft'.warnings = draft.warnings ++ eventWarnings schema body events := by
  induction events generalizing draft body with
  | nil =>
      cases hTake
      exact (List.append_nil _).symm
  | cons event events ih =>
      rw [Draft.takeAll_cons] at hTake
      split at hTake
      · cases hTake
      · next next hFirst =>
          obtain ⟨heldNext, -⟩ := (Draft.take_takes hFirst).gainsBodies held
          rw [ih hTake heldNext, Draft.take_warnings hFirst held, List.append_assoc]
          rfl

/-! ### The warnings of blocks -/

/-- How many warnings of a kind the block that is open has so far. -/
def heldWarnings (schema : Schema) (p : Warning → Bool) (body : Option Body) : Nat :=
  (body.map fun body => (body.warnings schema).countP p).getD 0

/-- Counting the warnings of a body, a description counts as its event does. -/
theorem Body.countP_addDesc (p : Warning → Bool) (body : Body) (keyword : Token) (text : String) :
    ((body.addDesc keyword text).warnings schema).countP p =
      ((Event.desc keyword text).warnings schema (some body)).countP p +
        (body.warnings schema).countP p := by
  obtain ⟨block, descs⟩ := body
  cases descs with
  | nil => simp [warnings, addDesc, Event.warnings]
  | cons first descs =>
      simp only [warnings, addDesc, Event.warnings, List.cons_append, List.tail_cons, List.map_append,
        List.map_singleton, List.countP_append, List.isEmpty_cons, Bool.false_eq_true, if_false]
      omega

/-- Counting the warnings of a body, a call counts as its event does. -/
theorem Body.countP_addCall (p : Warning → Bool) (body : Body) (call : Call) :
    ((body.addCall call).warnings schema).countP p =
      ((Event.call call).warnings schema (some body)).countP p +
        (body.warnings schema).countP p := by
  simp only [warnings, addCall, CallBlock.add, Event.warnings, List.filterMap_append,
    List.countP_append]
  cases hUnknown : unknownCall? schema call <;> simp [hUnknown]
  omega

/-- An event keeps count of the warnings of the blocks that are open or closed. Attributes are in no
block. -/
theorem Script.EventSpelled.countP_warnings (schema : Schema) {p : Warning → Bool}
    (hAttribute : ∀ line key, p (.unknownAttribute line key) = false) {scope scope' : Scope}
    {event : Event} {tokens : List Token} {body : Option Body}
    (spelled : EventSpelled scope event tokens scope')
    (hAgrees : Scope.Agrees scope (body.map Body.toCallBlock)) :
    (event.warnings schema body).countP p + heldWarnings schema p body =
      ((Body.closed body event).toList.map fun body => (body.warnings schema).countP p).sum +
        heldWarnings schema p (Body.after body event) := by
  cases spelled with
  | @attr _ key value _ _ _ hKey hScope spelledValue spelledEnd =>
      have hNone : ((Event.attr key value).warnings schema body).countP p = 0 := by
        simp only [Event.warnings]
        split
        · rfl
        · simp [hAttribute]
      rw [hNone]
      rfl
  | openMain hOpener hBrace =>
      cases body with
      | none => rfl
      | some body => exact hAgrees.elim
  | openState hOpener hName hBrace =>
      cases body with
      | none => rfl
      | some body => exact hAgrees.elim
  | @desc _ _ keyword text _ _ hKeyword hText spelledEnd =>
      cases body with
      | none => exact hAgrees.elim
      | some body =>
          exact (body.countP_addDesc p keyword text.value).symm.trans (Nat.zero_add _).symm
  | @call _ _ _ _ _ _ _ _ call hFront hName hCall hParen spelledArgs spelledGoto spelledEnd =>
      cases body with
      | none => exact hAgrees.elim
      | some body => exact (body.countP_addCall p call).symm.trans (Nat.zero_add _).symm
  | close hBrace =>
      cases body with
      | none => exact hAgrees.elim
      | some body => exact Nat.add_comm ..
  | random hOpener hName hBrace spelled =>
      cases body with
      | none => rfl
      | some body => exact hAgrees.elim

/-- The warnings of a script, apart from those about attributes, are those of its blocks. -/
theorem Script.ScriptSpelled.countP_warnings (schema : Schema) {p : Warning → Bool}
    (hAttribute : ∀ line key, p (.unknownAttribute line key) = false) {scope : Scope}
    {events : List Event} {tokens : List Token} {body : Option Body}
    (spelled : ScriptSpelled scope events tokens)
    (hAgrees : Scope.Agrees scope (body.map Body.toCallBlock)) :
    (eventWarnings schema body events).countP p + heldWarnings schema p body =
      ((bodies body events).map fun body => (body.warnings schema).countP p).sum := by
  induction spelled generalizing body with
  | finished hFinal =>
      cases body with
      | none => rfl
      | some body => exact hAgrees.elim
  | skip hKind rest ih => exact ih hAgrees
  | @event _ _ event events _ _ first rest ih =>
      have hStep := first.countP_warnings schema hAttribute hAgrees
      obtain ⟨hNext, -⟩ := first.counts hAgrees
      rw [← Body.map_toCallBlock_after] at hNext
      rw [eventWarnings, bodies, List.countP_append, List.map_append, List.sum_append, ← ih hNext]
      omega

/-! ### What the warnings of a block are about -/

/-- Whether a warning is about an action of a name that the schema does not know. -/
def Warning.isUnknownAction (name : String) : Warning → Bool
  | .unknownAction _ other => other = name
  | _ => false

/-- Whether a warning is about a rule of a name that the schema does not know. -/
def Warning.isUnknownRule (name : String) : Warning → Bool
  | .unknownRule _ other => other = name
  | _ => false

/-- Whether a warning is about a description of a block that has one already. -/
def Warning.isRepeatedDesc (block : Section) : Warning → Bool
  | .duplicateDescription _ other => other = block
  | _ => false

/-- A call warns of an unknown action just if it is an action of that name that the schema does
not have. -/
theorem any_isUnknownAction (call : Call) (name : String) :
    (unknownCall? schema call).any (Warning.isUnknownAction name) =
      (!schema.actions.contains name && (call.name.value = name && call.goto.isNone)) := by
  cases hGoto : call.goto with
  | some target =>
      simp only [unknownCall?, hGoto]
      split <;> simp [Warning.isUnknownAction]
  | none =>
      simp only [unknownCall?, hGoto]
      by_cases hName : call.name.value = name
      · cases hKnown : schema.actions.contains name <;> simp [hName, hKnown, Warning.isUnknownAction]
      · split <;> simp [hName, Warning.isUnknownAction]

/-- A call warns of an unknown rule just if it is a rule of that name that the schema does not
have. -/
theorem any_isUnknownRule (call : Call) (name : String) :
    (unknownCall? schema call).any (Warning.isUnknownRule name) =
      (!schema.rules.contains name && (call.name.value = name && call.goto.isSome)) := by
  cases hGoto : call.goto with
  | none =>
      simp only [unknownCall?, hGoto]
      split <;> simp [Warning.isUnknownRule]
  | some target =>
      simp only [unknownCall?, hGoto]
      by_cases hName : call.name.value = name
      · cases hKnown : schema.rules.contains name <;> simp [hName, hKnown, Warning.isUnknownRule]
      · split <;> simp [hName, Warning.isUnknownRule]

theorem any_isRepeatedDesc (call : Call) (block : Section) :
    (unknownCall? schema call).any (Warning.isRepeatedDesc block) = false := by
  rw [unknownCall?]
  split <;> split <;> rfl

/-- The warnings of a block are counted over its calls and its descriptions. -/
theorem Body.countP_warnings (p : Warning → Bool) (body : Body) :
    (body.warnings schema).countP p =
      body.calls.countP (fun call => (unknownCall? schema call).any p) +
        body.descs.tail.countP fun desc => p (repeatedDesc body.block desc) := by
  rw [warnings, List.countP_append, List.countP_map, List.countP_filterMap]
  congr 1
  exact List.countP_congr fun call _ => by cases unknownCall? schema call <;> simp

/-- A block has a warning for each of its actions of a name that the schema does not know. -/
theorem Body.countP_isUnknownAction (body : Body) (name : String) :
    (body.warnings schema).countP (Warning.isUnknownAction name) =
      if schema.actions.contains name then 0
      else (body.state schema).actions.countP fun action => action.type = name := by
  have hDescs : (body.descs.tail.countP fun desc =>
      Warning.isUnknownAction name (repeatedDesc body.block desc)) = 0 :=
    List.countP_eq_zero.2 fun _ _ => Bool.false_ne_true
  rw [countP_warnings, hDescs, Nat.add_zero, state, CallBlock.actions, List.countP_map,
    List.countP_filter]
  simp only [any_isUnknownAction]
  cases schema.actions.contains name with
  | true => simp
  | false => rfl

/-- A block has a warning for each of its rules of a name that the schema does not know. -/
theorem Body.countP_isUnknownRule (body : Body) (name : String) :
    (body.warnings schema).countP (Warning.isUnknownRule name) =
      if schema.rules.contains name then 0
      else (body.state schema).rules.countP fun rule => rule.type = name := by
  have hDescs : (body.descs.tail.countP fun desc =>
      Warning.isUnknownRule name (repeatedDesc body.block desc)) = 0 :=
    List.countP_eq_zero.2 fun _ _ => Bool.false_ne_true
  rw [countP_warnings, hDescs, Nat.add_zero, state, CallBlock.rules, List.countP_filterMap]
  simp only [any_isUnknownRule]
  cases schema.rules.contains name with
  | true => simp
  | false =>
      refine List.countP_congr fun call _ => ?_
      cases call.goto with
      | none => simp
      | some target => simp [Draft.ruleOf, Rule.refresh]

/-- A block has a warning for each of its descriptions but the first, and no other block has. -/
theorem Body.countP_isRepeatedDesc (body : Body) (block : Section) :
    (body.warnings schema).countP (Warning.isRepeatedDesc block) =
      if body.block = block then body.descs.length - 1 else 0 := by
  rw [countP_warnings]
  simp only [any_isRepeatedDesc, repeatedDesc, Warning.isRepeatedDesc]
  split
  · next hBlock => simp [hBlock]
  · next hOther => simp [hOther]

/-! ### References to missing states -/

/-- The last check raises warnings about targets and no others. -/
theorem isDangling_danglingGotos (quest : Quest) :
    ∀ warning ∈ quest.danglingGotos, warning.isDangling = true := by
  intro warning hMem
  simp only [Quest.danglingGotos, Quest.danglingIn, List.mem_append, List.mem_flatMap,
    List.mem_filterMap] at hMem
  rcases hMem with ⟨block, -, ⟨action, -, hAction⟩ | ⟨rule, -, hRule⟩⟩ | ⟨block, -, target, -, hTarget⟩
  · simp only [Quest.danglingAction?] at hAction
    split at hAction
    · split at hAction
      · cases hAction
      · cases hAction
        rfl
    · cases hAction
  · simp only [Quest.danglingRule?] at hRule
    split at hRule
    · cases hRule
    · cases hRule
      rfl
  · simp only [Quest.danglingTarget?] at hTarget
    split at hTarget
    · cases hTarget
    · cases hTarget
      rfl

theorem isDangling_unknownCall? {call : Call} {warning : Warning}
    (hWarning : unknownCall? schema call = some warning) : warning.isDangling = false := by
  unfold unknownCall? at hWarning
  split at hWarning <;> split at hWarning <;> cases hWarning <;> rfl

/-- No event raises a warning about a target, so these are told apart from the warnings of the
last check. -/
theorem Script.Event.isDangling_warnings (event : Event) (body : Option Body) :
    ∀ warning ∈ event.warnings schema body, warning.isDangling = false := by
  intro warning hMem
  cases event with
  | attr key value =>
      simp only [warnings] at hMem
      split at hMem
      · cases hMem
      · rw [List.mem_singleton.1 hMem]
        rfl
  | desc keyword text =>
      simp only [warnings] at hMem
      split at hMem
      · split at hMem
        · cases hMem
        · rw [List.mem_singleton.1 hMem]
          rfl
      · cases hMem
  | call call => exact isDangling_unknownCall? (Option.mem_toList.1 hMem)
  | openMain _ | openState _ _ | close | random _ _ _ => cases hMem

/-- No warning of a script itself is about a reference to a state. -/
theorem isDangling_eventWarnings (body : Option Body) (events : List Event) :
    ∀ warning ∈ eventWarnings schema body events, warning.isDangling = false := by
  induction events generalizing body with
  | nil => exact nofun
  | cons event events ih =>
      exact List.forall_mem_append.2 ⟨event.isDangling_warnings body, ih (Body.after body event)⟩

/-! ### The warnings of a quest -/

/-- The blocks of a quest, in any order, counted as those of its script. -/
theorem countP_blocks {α : Type} {quest : Quest} {found : List Body}
    (hMain : quest.main.toList = (found.filter fun body => body.isMain).map (Body.state schema))
    (hStates : quest.states = (found.filter fun body => !body.isMain).map (Body.state schema))
    (part : State → List α) (p : α → Bool) :
    (quest.blocks.flatMap part).countP p =
      (found.map fun body => (part (body.state schema)).countP p).sum := by
  have hPerm := List.filter_append_perm (fun body : Body => body.isMain) found
  rw [Quest.blocks, hMain, hStates, ← List.map_append, List.countP_flatMap, List.map_map]
  exact (hPerm.map _).sum_nat

/-- No two blocks of a script have one name, and at most one is the main block. -/
theorem nodup_blocks {quest : Quest} {found : List Body}
    (hMain : quest.main.toList = (found.filter fun body => body.isMain).map (Body.state schema))
    (hStates : quest.states = (found.filter fun body => !body.isMain).map (Body.state schema))
    (hNames : quest.stateNames.Nodup) : (found.map fun body => body.block).Nodup := by
  rw [List.nodup_iff_count_le_one]
  intro block
  rw [List.count_eq_countP, List.countP_map]
  cases block with
  | main =>
      have hLength : quest.main.toList.length ≤ 1 := by cases quest.main <;> simp
      rw [hMain, List.length_map, ← List.countP_eq_length_filter] at hLength
      refine Nat.le_trans (Nat.le_of_eq (List.countP_congr fun body _ => ?_)) hLength
      simp [CallBlock.isMain]
  | state name =>
      have hCount := List.nodup_iff_count_le_one.1 hNames name
      rw [Quest.stateNames, hStates, List.map_map, List.count_eq_countP, List.countP_map,
        List.countP_filter] at hCount
      refine Nat.le_trans (List.countP_mono_left fun body _ hBlock => ?_) hCount
      have hState : body.block = .state name := by simpa using hBlock
      simp [Body.state, CallBlock.isMain, hState, Section.name]

/-- A sum over blocks with different headers, where only one header counts, has one term. -/
theorem sum_of_nodup {found : List Body} (hNodup : (found.map fun body => body.block).Nodup)
    {body : Body} (hMem : body ∈ found) (count : Body → Nat) :
    (found.map fun other => if other.block = body.block then count other else 0).sum =
      count body := by
  induction found with
  | nil => cases hMem
  | cons first found ih =>
      obtain ⟨hFirst, hRest⟩ := List.nodup_cons.1 hNodup
      rw [List.map_cons, List.sum_cons]
      rcases List.mem_cons.1 hMem with rfl | hMem
      · have hOthers : ∀ other ∈ found, (if other.block = body.block then count other else 0) = 0 := by
          intro other hOther
          exact if_neg fun hSame => hFirst (List.mem_map.2 ⟨other, hOther, hSame⟩)
        rw [if_pos rfl, List.map_congr_left hOthers]
        simp
      · have hApart : first.block ≠ body.block := fun hSame =>
          hFirst (List.mem_map.2 ⟨body, hMem, hSame.symm⟩)
        rw [if_neg hApart, ih hRest hMem, Nat.zero_add]

/-- A kind of warnings that arise in blocks only: neither about attributes, nor about references to
states. -/
structure InBlocks (p : Warning → Bool) : Prop where
  noAttribute : ∀ line key, p (.unknownAttribute line key) = false
  noDangling : ∀ warning, warning.isDangling = true → p warning = false

/-- A warning of an unknown action can only come from inside of a block. -/
theorem InBlocks.isUnknownAction (name : String) : InBlocks (Warning.isUnknownAction name) := by
  refine ⟨fun _ _ => rfl, fun warning hDangling => ?_⟩
  cases warning <;> first | rfl | cases hDangling

theorem InBlocks.isUnknownRule (name : String) : InBlocks (Warning.isUnknownRule name) := by
  refine ⟨fun _ _ => rfl, fun warning hDangling => ?_⟩
  cases warning <;> first | rfl | cases hDangling

theorem InBlocks.isRepeatedDesc (block : Section) : InBlocks (Warning.isRepeatedDesc block) := by
  refine ⟨fun _ _ => rfl, fun warning hDangling => ?_⟩
  cases warning <;> first | rfl | cases hDangling

/-- All warnings of such a kind are those of the blocks of a script. -/
theorem countP_warnings {p : Warning → Bool} {quest : Quest} {events : List Event}
    {tokens : List Token} (spelled : ScriptSpelled .top events tokens) (kind : InBlocks p) :
    (eventWarnings schema none events ++ quest.danglingGotos).countP p =
      ((bodies none events).map fun body => (body.warnings schema).countP p).sum := by
  have hAgrees : Scope.Agrees .top ((none : Option Body).map Body.toCallBlock) := trivial
  have hNone : quest.danglingGotos.countP p = 0 := by
    refine List.countP_eq_zero.2 fun warning hMem => ?_
    simp [kind.noDangling warning (isDangling_danglingGotos quest warning hMem)]
  rw [List.countP_append, hNone, ← spelled.countP_warnings schema kind.noAttribute hAgrees]
  rfl

/-- A list of warnings is what a quest calls for, where its script has certain blocks: for each name
that the schema does not know there are as many warnings as the quest has calls of it, for each block
as many as it has descriptions but one, and the last ones are about the references to states that do
not exist. -/
structure Quest.Warned (schema : Schema) (quest : Quest) (warnings : List Warning)
    (found : List Body) : Prop where
  main : quest.main.toList = (found.filter fun body => body.isMain).map (Body.state schema)
  states : quest.states = (found.filter fun body => !body.isMain).map (Body.state schema)
  actions : ∀ name, warnings.countP (Warning.isUnknownAction name) =
    if schema.actions.contains name then 0
    else (quest.blocks.flatMap State.actions).countP fun action => action.type = name
  rules : ∀ name, warnings.countP (Warning.isUnknownRule name) =
    if schema.rules.contains name then 0
    else (quest.blocks.flatMap State.rules).countP fun rule => rule.type = name
  descs : ∀ body ∈ found, warnings.countP (Warning.isRepeatedDesc body.block) =
    body.descs.length - 1
  noDescs : ∀ block, (∀ body ∈ found, body.block ≠ block) →
    warnings.countP (Warning.isRepeatedDesc block) = 0
  dangling : ∃ before, warnings = before ++ quest.danglingGotos ∧
    ∀ warning ∈ before, warning.isDangling = false
  references : quest.findDangling = .ok quest.danglingGotos

end

/-- The warnings of a script are complete and exact: the quest has the blocks between the braces of
the script, each with its last description, and is warned of just what it calls for. -/
theorem Quest.parse_warned {schema : Schema} {id : Number} {text : String} {quest : Quest}
    {warnings : List Warning} (hParse : Quest.parse schema id text = .ok (quest, warnings)) :
    ∃ tokens events, Script.tokenize text = .ok tokens ∧
      Outline.ofTokens tokens = ⟨events, none⟩ ∧ ScriptSpelled .top events tokens ∧
      quest.Warned schema warnings (bodies none events) := by
  obtain ⟨tokens, events, draft, hTokens, hOutline, hTake, rfl, rfl⟩ := parse_eq_ok hParse
  have spelled := Script.outlineFrom_spelled (Script.tokenize_complete hTokens) hOutline
  have run := Draft.takeAll_run hTake
  have held : Held schema (Quest.blank id) none none := trivial
  obtain ⟨hMain, hStates, -⟩ := run.gainsBodies held
  have hWarnings : draft.warnings = eventWarnings schema none events :=
    Draft.takeAll_warnings hTake held
  have hNodup := nodup_blocks hMain hStates (run.canonical hTokens hOutline).stateNames
  have hDescs (block : Section) :
      (draft.warnings ++ draft.quest.danglingGotos).countP (Warning.isRepeatedDesc block) =
        ((bodies none events).map fun body =>
          if body.block = block then body.descs.length - 1 else 0).sum := by
    rw [hWarnings, countP_warnings spelled (.isRepeatedDesc block)]
    simp only [Body.countP_isRepeatedDesc]
  refine ⟨tokens, events, hTokens, hOutline, spelled, hMain, hStates, fun name => ?_, fun name => ?_,
    fun body hMem => ?_, fun block hNone => ?_, ⟨draft.warnings, rfl, ?_⟩,
    Quest.findDangling_of_parse hParse⟩
  · rw [hWarnings, countP_warnings spelled (.isUnknownAction name), countP_blocks hMain hStates]
    simp only [Body.countP_isUnknownAction]
    split
    · simp
    · rfl
  · rw [hWarnings, countP_warnings spelled (.isUnknownRule name), countP_blocks hMain hStates]
    simp only [Body.countP_isUnknownRule]
    split
    · simp
    · rfl
  · rw [hDescs]
    exact sum_of_nodup hNodup hMem fun body => body.descs.length - 1
  · have hZero : ∀ body ∈ bodies none events,
        (if body.block = block then body.descs.length - 1 else 0) = 0 := fun body hMem =>
      if_neg (hNone body hMem)
    rw [hDescs, List.map_congr_left hZero]
    simp
  · rw [hWarnings]
    exact isDangling_eventWarnings none events

/-- A call of an unknown action in both blocks, a rule without its state, and a second description. -/
theorem Quest.parse_warned_sample :
    let text := "main \x7b desc \"a\" Say(1) desc \"b\" \x7d state A \x7b Go() goto B Say(2) \x7d"
    let quest : Quest :=
      { Quest.blank 7 with
        main := some ⟨"Main", "b", [⟨"Say", [.int 1], "Say(1);"⟩], []⟩
        states := [⟨"A", "", [⟨"Say", [.int 2], "Say(2);"⟩], [⟨"Go", [], "B", "Go() goto B"⟩]⟩] }
    let warnings : List Warning :=
      [.unknownAction 1 "Say", .duplicateDescription 1 .main, .unknownRule 1 "Go",
        .unknownAction 1 "Say", .danglingRule "A" "Go" "B"]
    Quest.parse Schema.empty 7 text = .ok (quest, warnings) ∧
      ∃ tokens events, Script.tokenize text = .ok tokens ∧
        Outline.ofTokens tokens = ⟨events, none⟩ ∧
        quest.Warned Schema.empty warnings (bodies none events) := by
  intro text quest warnings
  have hParse : Quest.parse Schema.empty 7 text = .ok (quest, warnings) := by decide +kernel
  obtain ⟨tokens, events, hTokens, hOutline, -, warned⟩ := Quest.parse_warned hParse
  exact ⟨hParse, tokens, events, hTokens, hOutline, warned⟩

end QuestScript

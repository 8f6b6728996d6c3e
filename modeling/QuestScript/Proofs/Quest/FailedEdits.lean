import QuestScript.Proofs.Quest.TypedCalls
import QuestScript.Proofs.Quest.Redirecting
/-!
Edits that fail. What can refuse an edit, the look-ups, the checks and the conversions, comes before
the first write, so an edit that is refused leaves the quest as it was, the cached text included. Only
where the text of a call cannot be made anew an edit fails after it has written something: the argument
that was to be written, or the new name of a state.
-/

namespace QuestScript

open InPlace (Ends)

/-- The kinds of errors: a quest error about the name of a state, an index without a place, a main
block that there is not, and an integer that is not converted. -/
inductive EditError.Kind where
  | name
  | index
  | main
  | integer
deriving DecidableEq, Repr

def EditError.kind : EditError → EditError.Kind
  | .stateExists _ => .name
  | .noState _ => .name
  | .noSlot => .index
  | .noParam => .index
  | .noCall => .index
  | .indexTooFar => .index
  | .noMain _ => .main
  | .oversize _ => .integer
  | .unwritten _ => .integer

/-- The ways in which an edit of a quest can fail: a value that is not converted, a condition under
which the edit is refused, with the kind of error, and what stops it after a write, with what it
leaves. -/
structure Edit.Failures where
  unread? : Option Integer.Oversize := none
  kind : EditError.Kind
  refused : Prop
  unwritten? : Option EditError := none
  left : Quest → Prop := fun _ => False

/-- An edit in place fails exactly in some ways. What is checked before a write leaves the quest as it
was; if nothing of it fails and no text stops the edit, then it succeeds. -/
structure Edit.FailsExactly (schema : Schema) (quest : Quest) (edit : Edit)
    (failures : Edit.Failures) : Prop where
  unread {fault : Integer.Oversize} (hFault : failures.unread? = some fault) :
    (edit.inPlace schema).run quest = .error (.oversize fault) quest
  refused (hRead : failures.unread? = none) (hRefused : failures.refused) :
    ∃ error, error.kind = failures.kind ∧ (edit.inPlace schema).run quest = .error error quest
  stopped (hRead : failures.unread? = none) (hNot : ¬failures.refused) {error : EditError}
    (hFault : failures.unwritten? = some error) :
    ∃ left, (edit.inPlace schema).run quest = .error error left ∧ failures.left left
  succeeds (hRead : failures.unread? = none) (hNot : ¬failures.refused)
    (hFault : failures.unwritten? = none) :
    ∃ result quest', (edit.inPlace schema).run quest = .ok result quest'

/-- The outcome of a function that fails exactly if a value is not converted, or else under a
condition, with an error of a kind. -/
inductive ErrsExactly {α : Type} (unread? : Option Integer.Oversize) (kind : EditError.Kind)
    (refused : Prop) : Except EditError α → Prop where
  | unread {fault : Integer.Oversize} (hFault : unread? = some fault) :
      ErrsExactly unread? kind refused (.error (.oversize fault))
  | refused {error : EditError} (hRead : unread? = none) (hRefused : refused)
      (hKind : error.kind = kind) : ErrsExactly unread? kind refused (.error error)
  | ok {result : α} (hRead : unread? = none) (hNot : ¬refused) :
      ErrsExactly unread? kind refused (.ok result)

namespace ErrsExactly

variable {α β : Type} {unread? : Option Integer.Oversize} {kind : EditError.Kind} {refused : Prop}

/-- How a function fails does not depend on what is made of its result. -/
theorem map {outcome : Except EditError α} (hErrs : ErrsExactly unread? kind refused outcome)
    (change : α → β) : ErrsExactly unread? kind refused (outcome.map change) := by
  cases hErrs with
  | unread hFault => exact .unread hFault
  | refused hRead hRefused hKind => exact .refused hRead hRefused hKind
  | ok hRead hNot => exact .ok hRead hNot

/-- When an edit fails, from when its function does and how its operation ends. -/
theorem failsExactly {schema : Schema} {quest : Quest} {edit : Edit} {operation : InPlace Quest α}
    {tag : α → Edited} {outcome : Except EditError (α × Quest)} {unwritten? : Option EditError}
    {left : Quest → Prop} (hErrs : ErrsExactly unread? kind refused outcome)
    (hEnds : Ends quest outcome unwritten? left (operation.run quest))
    (hInPlace : edit.inPlace schema = tag <$> operation) :
    edit.FailsExactly schema quest ⟨unread?, kind, refused, unwritten?, left⟩ := by
  have hRun : (edit.inPlace schema).run quest =
      match operation.run quest with
      | .ok result quest' => .ok (tag result) quest'
      | .error error quest' => .error error quest' := by
    rw [hInPlace, ← bind_pure_comp, EStateM.run_bind]
    cases operation.run quest <;> rfl
  generalize operation.run quest = ended at hEnds hRun
  cases hErrs with
  | unread hFault =>
      cases hEnds with
      | refused hOutcome =>
          cases hOutcome
          refine ⟨fun hOther => ?_, fun hRead => ?_, fun hRead => ?_, fun hRead => ?_⟩
          · obtain rfl := Option.some.inj (hFault.symm.trans hOther)
            exact hRun
          all_goals
            rw [hFault] at hRead
            cases hRead
      | done hOutcome => cases hOutcome
      | stopped hOutcome => cases hOutcome
  | refused hRead hRefused hKind =>
      cases hEnds with
      | refused hOutcome =>
          cases hOutcome
          refine ⟨fun hFault => ?_, fun _ _ => ⟨_, hKind, hRun⟩, fun _ hNot => ?_, fun _ hNot => ?_⟩
          · rw [hRead] at hFault
            cases hFault
          · exact absurd hRefused hNot
          · exact absurd hRefused hNot
      | done hOutcome => cases hOutcome
      | stopped hOutcome => cases hOutcome
  | ok hRead hNot =>
      have hNever {fault : Integer.Oversize} (hFault : unread? = some fault) : False := by
        rw [hRead] at hFault
        cases hFault
      cases hEnds with
      | refused hOutcome => cases hOutcome
      | done _ hUnwritten =>
          refine ⟨fun hFault => (hNever hFault).elim, fun _ hRefused => absurd hRefused hNot,
            fun _ _ error hFault => ?_, fun _ _ _ => ⟨_, _, hRun⟩⟩
          rw [hUnwritten] at hFault
          cases hFault
      | stopped _ hUnwritten hLeft =>
          refine ⟨fun hFault => (hNever hFault).elim, fun _ hRefused => absurd hRefused hNot,
            fun _ _ error hFault => ?_, fun _ _ hFault => ?_⟩
          · obtain rfl := Option.some.inj (hUnwritten.symm.trans hFault)
            exact ⟨_, hRun, hLeft⟩
          · rw [hUnwritten] at hFault
            cases hFault

/-! ### Names -/

/-- The check of a given name, where no name is given when one is made up. -/
theorem isTaken_iff (quest : Quest) (given : Option String) (free : String) :
    (given.isSome && (quest.state? (given.getD free)).isSome) = true ↔
      ∃ taken ∈ quest.stateNames, given = some taken := by
  cases given with
  | none => simp
  | some name => simp [quest.state?_isSome name]

/-- Adding a state fails just if its name is given and taken. A name that is searched for is
always free. -/
theorem addState (quest : Quest) (name : Option String) :
    ErrsExactly none .name (∃ taken ∈ quest.stateNames, name = some taken) (quest.addState name) := by
  unfold Quest.addState
  dsimp only
  split
  · next hTaken => exact .refused rfl ((isTaken_iff quest name _).1 hTaken) rfl
  · next hFree => exact .ok rfl fun hTaken => hFree ((isTaken_iff quest name _).2 hTaken)

/-- Duplicating a state fails just if there is no such state or the given name is taken. -/
theorem duplicateState (quest : Quest) (name : String) (newName : Option String) :
    ErrsExactly none .name
      (name ∉ quest.stateNames ∨ ∃ taken ∈ quest.stateNames, newName = some taken)
      (quest.duplicateState name newName) := by
  rw [← quest.state?_isSome, Quest.duplicateState]
  cases quest.state? name with
  | none => exact .refused rfl (Or.inl (by simp)) rfl
  | some source =>
      dsimp only
      split
      · next hTaken => exact .refused rfl (Or.inr ((isTaken_iff quest newName _).1 hTaken)) rfl
      · next hFree =>
          refine .ok rfl ?_
          rintro (hMissing | hTaken)
          · exact hMissing rfl
          · exact hFree ((isTaken_iff quest newName _).2 hTaken)

/-- Removing a state fails just if there is no such state. -/
theorem removeState (quest : Quest) (name : String) :
    ErrsExactly none .name (name ∉ quest.stateNames) (quest.removeState name) := by
  rw [← quest.state?_isSome, Quest.removeState]
  cases quest.state? name with
  | none => exact .refused rfl (by simp) rfl
  | some state => exact .ok rfl (by simp)

/-- Renaming a state fails just if there is none of the old name, or the new name is that of
another. -/
theorem renameState (schema : Schema) (quest : Quest) (old new : String) :
    ErrsExactly none .name (old ∉ quest.stateNames ∨ new ≠ old ∧ new ∈ quest.stateNames)
      (quest.renameState schema old new) := by
  rw [← quest.state?_isSome, ← quest.state?_isSome, Quest.renameState]
  cases quest.state? old with
  | none => exact .refused rfl (Or.inl (by simp)) rfl
  | some state =>
      dsimp only
      split
      · next hSame => exact .ok rfl (by simp [hSame])
      · next hOther =>
          split
          · next hTaken => exact .refused rfl (Or.inr ⟨hOther, hTaken⟩) rfl
          · next hFree => exact .ok rfl (by simp [hFree])

/-! ### Indexes -/

theorem ofIndex_kind {missing : EditError} (hMissing : missing.kind = .index) (index : Int) :
    (missing.ofIndex index).kind = .index := by
  unfold EditError.ofIndex
  split
  · exact hMissing
  · rfl

/-- A value is converted for a slot that there is. -/
theorem toParamAt?_isSome_of_faultAt? {value : EditValue} {slots : List Schema.Slot} {index : Int}
    {fault : Integer.Oversize} (hFault : value.faultAt? slots index = some fault) :
    (value.toParamAt? slots index).isSome := by
  unfold EditValue.faultAt? at hFault
  split at hFault
  · next hBelow =>
      obtain ⟨place, hPlace, hRest⟩ := Option.bind_eq_some_iff.1 hFault
      obtain ⟨slot, hSlot, -⟩ := Option.bind_eq_some_iff.1 hRest
      rw [EditValue.toParamAt?, if_pos hBelow, hPlace, Option.bind_some, hSlot]
      rfl
  · cases hFault

/-- A value is converted once its slot has been found, and before its argument is looked up. -/
theorem setParam (slots : List Schema.Slot) (params : List Param) (index : Int)
    (value : EditValue) :
    ErrsExactly (value.faultAt? slots index) .index
      (¬(-(params.length : Int) ≤ index ∧ index < params.length ∧
        (0 ≤ index ∨ -(slots.length : Int) ≤ index)))
      (QuestScript.setParam slots params index value) := by
  rw [setParam_eq, ← and_assoc, ← place?_isSome, ← @EditValue.toParamAt?_isSome value]
  cases hFault : value.faultAt? slots index with
  | some fault =>
      obtain ⟨param, hParam⟩ := Option.isSome_iff_exists.1 (toParamAt?_isSome_of_faultAt? hFault)
      rw [hParam]
      exact .unread rfl
  | none =>
      cases value.toParamAt? slots index with
      | none => exact .refused rfl (by simp) (ofIndex_kind rfl index)
      | some param =>
          cases place? params.length index with
          | none => exact .refused rfl (by simp) (ofIndex_kind rfl index)
          | some place => exact .ok rfl (by simp)

/-- An edit of a block fails as the change of that block does. -/
theorem editBlock {quest : Quest} {ref : BlockRef} {block : State}
    (hBlock : quest.block? ref = some block) {change : State → Except EditError (α × State)}
    (hErrs : ErrsExactly unread? kind refused (change block)) (part : BlockPart) :
    ErrsExactly unread? kind refused (quest.editBlock ref part change) := by
  have hEdit : quest.editBlock ref part change =
      (change block).map fun done => (done.1, quest.setBlock ref done.2) := by
    rw [Quest.editBlock, hBlock]
    dsimp only
    cases change block <;> rfl
  rw [hEdit]
  exact hErrs.map _

/-- An edit of an action fails as the change of that action does, once its index has a place. -/
theorem editAction {state : State} {call : Int} {action : Action}
    (hAction : item? state.actions call = some action)
    {change : Action → Except EditError Action}
    (hErrs : ErrsExactly unread? kind refused (change action)) :
    ErrsExactly unread? kind refused (state.editAction call change) := by
  obtain ⟨place, hPlace, hAt⟩ := Option.bind_eq_some_iff.1 hAction
  have hEdit : state.editAction call change = (change action).map fun action =>
      (action, { state with actions := state.actions.set place action }) := by
    simp only [State.editAction, hPlace, hAt]
    cases change action <;> rfl
  rw [hEdit]
  exact hErrs.map _

/-- An edit of a rule fails as the change of that rule does, once its index has a place. -/
theorem editRule {state : State} {call : Int} {rule : Rule}
    (hRule : item? state.rules call = some rule)
    {change : Rule → Except EditError Rule}
    (hErrs : ErrsExactly unread? kind refused (change rule)) :
    ErrsExactly unread? kind refused (state.editRule call change) := by
  obtain ⟨place, hPlace, hAt⟩ := Option.bind_eq_some_iff.1 hRule
  have hEdit : state.editRule call change = (change rule).map fun rule =>
      (rule, { state with rules := state.rules.set place rule }) := by
    simp only [State.editRule, hPlace, hAt]
    cases change rule <;> rfl
  rw [hEdit]
  exact hErrs.map _

end ErrsExactly

/-- When edits of states and of arguments fail, and with what they leave.

To add or to copy a state under a given name fails exactly if a state has the name; to copy or to remove
a state also fails if there is none. To rename a state is refused if there is none, or if another one
has the new name, and stops at the first reference that cannot be renamed; the state has its new name
then. To write to an argument of a call fails if the value cannot be converted for its slot, and else if
there is no argument at the index, or if the index counts from the end and is beyond the slots of the
call; it stops if the call cannot be written with the value, which is in its place then, under the text
from before. In all other cases the edits succeed. -/
theorem Edit.fails_exactly (schema : Schema) (quest : Quest) :
    (∀ name, (Edit.addState name).FailsExactly schema quest
      { kind := .name
        refused := ∃ taken ∈ quest.stateNames, name = some taken }) ∧
    (∀ name newName, (Edit.duplicateState name newName).FailsExactly schema quest
      { kind := .name
        refused := name ∉ quest.stateNames ∨ ∃ taken ∈ quest.stateNames, newName = some taken }) ∧
    (∀ name, (Edit.removeState name).FailsExactly schema quest
      { kind := .name
        refused := name ∉ quest.stateNames }) ∧
    (∀ old new, (Edit.renameState old new).FailsExactly schema quest
      { kind := .name
        refused := old ∉ quest.stateNames ∨ new ≠ old ∧ new ∈ quest.stateNames
        unwritten? := if new = old then none else quest.renameFault? schema old new
        left := fun left => left.stateNames = (quest.withNewName old new).stateNames }) ∧
    (∀ ref block, quest.block? ref = some block →
      ∀ call action, item? block.actions call = some action →
      ∀ index value, (Edit.setActionParam ref call index value).FailsExactly schema quest
        { unread? := value.faultAt? (schema.actionSlots action.type) index
          kind := .index
          refused := ¬(-(action.params.length : Int) ≤ index ∧ index < action.params.length ∧
            (0 ≤ index ∨ -((schema.actionSlots action.type).length : Int) ≤ index))
          unwritten? := (action.setParam schema index value).toOption.bind fun changed =>
            (changed.fault? schema).map .unwritten
          left := fun left => ∃ changed, action.setParam schema index value = .ok changed ∧
            left = quest.setBlock ref { block with
              actions := setItem block.actions call { changed with rawText := action.rawText } } }) ∧
    (∀ ref block, quest.block? ref = some block →
      ∀ call rule, item? block.rules call = some rule →
      ∀ index value, (Edit.setRuleParam ref call index value).FailsExactly schema quest
        { unread? := value.faultAt? (schema.ruleSlots rule.type) index
          kind := .index
          refused := ¬(-(rule.params.length : Int) ≤ index ∧ index < rule.params.length ∧
            (0 ≤ index ∨ -((schema.ruleSlots rule.type).length : Int) ≤ index))
          unwritten? := (rule.setParam schema index value).toOption.bind fun changed =>
            (changed.fault? schema).map .unwritten
          left := fun left => ∃ changed, rule.setParam schema index value = .ok changed ∧
            left = quest.setBlock ref { block with
              rules := setItem block.rules call { changed with rawText := rule.rawText } } }) := by
  refine ⟨fun name => ?_, fun name newName => ?_, fun name => ?_, fun old new => ?_, ?_, ?_⟩
  · have hEnds := Ends.commit quest (quest.addState name)
    rw [← InPlace.run_addState name quest] at hEnds
    exact (ErrsExactly.addState quest name).failsExactly hEnds rfl
  · have hEnds := Ends.commit quest (quest.duplicateState name newName)
    rw [← InPlace.run_duplicateState name newName quest] at hEnds
    exact (ErrsExactly.duplicateState quest name newName).failsExactly hEnds rfl
  · have hEnds := Ends.commit quest (quest.removeState name)
    rw [← InPlace.run_removeState name quest] at hEnds
    exact (ErrsExactly.removeState quest name).failsExactly hEnds rfl
  · have hEnds := InPlace.renameState_ends schema old new quest
    exact (ErrsExactly.renameState schema quest old new).failsExactly
      (hEnds.mono fun left hLeft => hLeft.names) rfl
  · intro ref block hBlock call action hAction index value
    have hEnds := InPlace.onBlock_ends
      (InPlace.onAction_ends (InPlace.setActionParam_ends schema index value) call) ref .actions quest
    simp only [hBlock, Option.bind_some, hAction] at hEnds
    have hSet := (ErrsExactly.setParam (schema.actionSlots action.type) action.params index value).map
      fun params => Action.refresh schema { action with params }
    refine (ErrsExactly.editBlock hBlock (.editAction hAction hSet) .actions).failsExactly
      (hEnds.mono ?_) rfl
    rintro left ⟨_, _, ⟨⟩, ⟨_, _, hFound, ⟨changed, hChanged, rfl⟩, rfl⟩, rfl⟩
    obtain rfl := Option.some.inj (hFound.symm.trans hAction)
    exact ⟨changed, hChanged, rfl⟩
  · intro ref block hBlock call rule hRule index value
    have hEnds := InPlace.onBlock_ends
      (InPlace.onRule_ends (InPlace.setRuleParam_ends schema index value) call) ref .rules quest
    simp only [hBlock, Option.bind_some, hRule] at hEnds
    have hSet := (ErrsExactly.setParam (schema.ruleSlots rule.type) rule.params index value).map
      fun params => Rule.refresh schema { rule with params }
    refine (ErrsExactly.editBlock hBlock (.editRule hRule hSet) .rules).failsExactly
      (hEnds.mono ?_) rfl
    rintro left ⟨_, _, ⟨⟩, ⟨_, _, hFound, ⟨changed, hChanged, rfl⟩, rfl⟩, rfl⟩
    obtain rfl := Option.some.inj (hFound.symm.trans hRule)
    exact ⟨changed, hChanged, rfl⟩

/-- A call with two arguments of which one has a slot: an index from the end means an argument that it
finds no slot for, and an integer with too many digits is written to the slot, but not as text. In a slot
for text it is not even written. A call without slots takes no index from the end at all. -/
theorem Edit.fails_exactly_sample :
    let schema : Schema :=
      ⟨(Table.empty.put "Wait" ⟨"Wait", "", "", [⟨"ticks", .integer⟩]⟩).put "Say"
        ⟨"Say", "", "", [⟨"text", .string⟩]⟩, Table.empty⟩
    let action : Action := ⟨"Wait", [.int 7, .int 8], "as it was"⟩
    let other : Action := ⟨"Say", [.quoted "Hi"], "as it was"⟩
    let rule : Rule := ⟨"Always", [.int 1], "A", "as it was"⟩
    let state : State := ⟨"A", "", [action, other], [rule]⟩
    let quest : Quest := { Quest.blank 1 with states := [state] }
    let long : EditValue := .number (.int (tenPow Integer.maxDigits))
    (quest.block? (.state (-1)) = some state ∧ item? state.actions 0 = some action ∧
      item? state.actions 1 = some other ∧ item? state.rules (-1) = some rule) ∧
    (∃ error, error.kind = .index ∧
      ((Edit.setActionParam (.state (-1)) 0 (-2) .null).inPlace schema).run quest =
        .error error quest) ∧
    (∃ result quest',
      ((Edit.setActionParam (.state (-1)) 0 (-1) .null).inPlace schema).run quest =
        .ok result quest') ∧
    (∃ left, ((Edit.setActionParam (.state (-1)) 0 0 long).inPlace schema).run quest =
        .error (.unwritten .toText) left ∧
      left.states.map State.actions =
        [[⟨"Wait", [.int (tenPow Integer.maxDigits), .int 8], "as it was"⟩, other]]) ∧
    ((Edit.setActionParam (.state (-1)) 1 0 long).inPlace schema).run quest =
      .error (.oversize .toText) quest ∧
    ∃ error, error.kind = .index ∧
      ((Edit.setRuleParam (.state (-1)) (-1) (-1) .null).inPlace schema).run quest =
        .error error quest := by
  intro schema action other rule state quest long
  have hBlock : quest.block? (.state (-1)) = some state := rfl
  have hAction : item? state.actions 0 = some action := rfl
  have hOther : item? state.actions 1 = some other := rfl
  have hRule : item? state.rules (-1) = some rule := rfl
  have hSlot : long.faultAt? (schema.actionSlots action.type) 0 = none := by decide +kernel
  have hText : long.faultAt? (schema.actionSlots other.type) 0 = some .toText := by decide +kernel
  have hWritten : ((action.setParam schema (-1) .null).toOption.bind fun changed =>
      (changed.fault? schema).map EditError.unwritten) = none := by decide +kernel
  have hUnwritten : ((action.setParam schema 0 long).toOption.bind fun changed =>
      (changed.fault? schema).map EditError.unwritten) = some (.unwritten .toText) := by
    decide +kernel
  obtain ⟨-, -, -, -, hActions, hRules⟩ := Edit.fails_exactly schema quest
  have hSucceeds := (hActions _ state hBlock 0 action hAction (-1) .null).succeeds
  have hStopped := @(hActions _ state hBlock 0 action hAction 0 long).stopped
  have hUnread := @(hActions _ state hBlock 1 other hOther 0 long).unread
  dsimp only at hSucceeds hStopped hUnread
  refine ⟨⟨hBlock, hAction, hOther, hRule⟩,
    (hActions _ state hBlock 0 action hAction (-2) .null).refused (by decide) (by decide),
    hSucceeds (by decide) (by decide) hWritten, ?_, hUnread hText,
    (hRules _ state hBlock (-1) rule hRule (-1) .null).refused (by decide) (by decide)⟩
  obtain ⟨left, hRun, changed, hChanged, rfl⟩ := hStopped hSlot (by decide) hUnwritten
  refine ⟨_, hRun, ?_⟩
  cases hChanged
  rfl

end QuestScript

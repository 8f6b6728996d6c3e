import QuestScript.Proofs.Script.Columns
import QuestScript.Quest.Draft
/-!
Scripts of one layout. Whatever stands between the tokens of a script, and however wide it is, the
script means the same as long as no token comes to another line and the same arguments touch: the
same quest with the same cached texts and the same warnings, or the same fault on the same line.
-/

namespace QuestScript

open Script (Agree Arg Call Event Malformed Outline SameLayout Section Token ite_related tokenize
  tokenize_clears)

def OpenBlock.movedTo (current : OpenBlock) (column : Nat) : OpenBlock :=
  { current with opener := current.opener.movedTo column }

namespace Draft

def movedTo (draft : Draft) (column : Nat) : Draft :=
  { draft with current := draft.current.map fun current => current.movedTo column }

/-- Two drafts that differ in the column of the opener only. -/
def Alike (draft draft' : Draft) : Prop := ∃ column, draft' = draft.movedTo column

variable (draft : Draft) (column : Nat)

/-- A change of the open block that does not look at columns commutes with moving it. -/
theorem movedTo_updateBlock {change : OpenBlock → OpenBlock}
    (hChange : ∀ current : OpenBlock,
      change (current.movedTo column) = (change current).movedTo column) :
    (draft.movedTo column).updateBlock change = (draft.updateBlock change).movedTo column := by
  simp only [updateBlock, movedTo, Option.map_map, Function.comp_def, hChange]

theorem movedTo_takeAttribute (key : Token) (keyColumn : Nat) (value : Option Arg) :
    (draft.movedTo column).takeAttribute (key.movedTo keyColumn) value =
      (draft.takeAttribute key value).movedTo column := by
  unfold takeAttribute
  rw [Token.movedTo_value]
  split <;> rfl

theorem movedTo_describe (keyword : Token) (keywordColumn : Nat) (text : String) :
    (draft.movedTo column).describe (keyword.movedTo keywordColumn) text =
      (draft.describe keyword text).movedTo column := by
  obtain ⟨quest, current, warnings⟩ := draft
  cases current with
  | none => rfl
  | some current =>
      cases hDescribed : current.described <;>
        simp [describe, movedTo, OpenBlock.movedTo, updateBlock, warn, Option.filter, hDescribed]

theorem movedTo_addAction (action : Action) :
    (draft.movedTo column).addAction action = (draft.addAction action).movedTo column :=
  movedTo_updateBlock draft column fun _ => rfl

theorem movedTo_addRule (rule : Rule) :
    (draft.movedTo column).addRule rule = (draft.addRule rule).movedTo column :=
  movedTo_updateBlock draft column fun _ => rfl

theorem movedTo_warn (warning : Warning) :
    (draft.movedTo column).warn warning = (draft.warn warning).movedTo column := rfl

/-- Whether an integer is converted does not depend on columns, and that it is not has no place. -/
theorem movedTo_unlessOversize (fault? : Option Integer.Oversize) {draft' : Draft}
    (hMoved : draft' = draft.movedTo column) :
    Agree Alike (unlessOversize fault? draft) (unlessOversize fault? draft') := by
  cases fault? with
  | none => exact Agree.ok ⟨column, hMoved⟩
  | some fault => exact Agree.error ⟨rfl, rfl⟩

/-- A call is taken alike in two drafts that differ in columns: with the same faults on the same
lines, and with the same warnings. -/
theorem movedTo_call (schema : Schema) (made : Call) (nameColumn : Nat) :
    Agree Alike (call schema draft made)
      (call schema (draft.movedTo column) (made.movedTo nameColumn)) := by
  obtain ⟨name, args, goto, semicolon⟩ := made
  cases goto with
  | some goto =>
      refine movedTo_unlessOversize _ column _ ?_
      rw [movedTo_warn, ← apply_ite (fun draft : Draft => draft.movedTo column)]
      exact movedTo_addRule _ _ _
  | none =>
      refine ite_related (fun _ => movedTo_unlessOversize _ _ _ (movedTo_addAction _ _ _)) fun _ => ?_
      refine ite_related (fun _ => Agree.error ⟨rfl, rfl⟩) fun _ => ?_
      exact movedTo_unlessOversize _ _ _ (movedTo_addAction (draft.warn _) _ _)

/-- Closing a block does not look at columns. The fault of a repeated state has the line of its
header. -/
theorem movedTo_close : Agree Alike draft.close (draft.movedTo column).close := by
  obtain ⟨quest, current, warnings⟩ := draft
  cases current with
  | none => exact Agree.ok ⟨0, rfl⟩
  | some current =>
      obtain ⟨block, opener, state, described⟩ := current
      cases block with
      | main => exact Agree.ok ⟨0, rfl⟩
      | state name =>
          exact ite_related (fun _ => Agree.error ⟨rfl, rfl⟩) fun _ => Agree.ok ⟨0, rfl⟩

/-- A random block is added alike, or is refused alike where its name is taken already. -/
theorem movedTo_addRandom (opener : Token) (openerColumn : Nat) (name : String)
    (targets : List (String × Int)) :
    Agree Alike (draft.addRandom opener name targets)
      ((draft.movedTo column).addRandom (opener.movedTo openerColumn) name targets) :=
  ite_related (fun _ => Agree.error ⟨rfl, rfl⟩) fun _ => Agree.ok ⟨column, rfl⟩

/-- Taking an event does not look at columns. -/
theorem take_alike (schema : Schema) {event event' : Event} (hEvent : event.Alike event') :
    Agree Alike (take schema draft event) (take schema (draft.movedTo column) event') := by
  cases hEvent with
  | attr key keyColumn value =>
      exact movedTo_unlessOversize _ _ _ (movedTo_takeAttribute _ _ _ _ _)
  | openMain opener openerColumn =>
      exact ite_related (fun _ => Agree.error ⟨rfl, rfl⟩) fun _ => Agree.ok ⟨openerColumn, rfl⟩
  | openState opener openerColumn name => exact Agree.ok ⟨openerColumn, rfl⟩
  | desc keyword keywordColumn text => exact Agree.ok ⟨column, movedTo_describe _ _ _ _ _⟩
  | call made nameColumn => exact movedTo_call draft column schema made nameColumn
  | close => exact movedTo_close draft column
  | random opener openerColumn name targets => exact movedTo_addRandom _ _ _ _ _ _

/-- Events that are alike take drafts that are alike to such drafts, or fail alike. -/
theorem takeAll_alike (schema : Schema) {events events' : List Event}
    (hEvents : List.Forall₂ Event.Alike events events') :
    Agree Alike (takeAll schema draft events) (takeAll schema (draft.movedTo column) events') := by
  induction hEvents generalizing draft column with
  | nil => exact Agree.ok ⟨column, rfl⟩
  | @cons event event' events events' hEvent hRest ih =>
      have hTake := take_alike draft column schema hEvent
      rw [takeAll, takeAll, List.foldlM_cons, List.foldlM_cons]
      revert hTake
      generalize take schema draft event = taken
      generalize take schema (draft.movedTo column) event' = taken'
      rintro (@⟨next, _, nextColumn, rfl⟩ | hFault)
      · exact ih next nextColumn
      · exact Agree.error hFault

end Draft

namespace Quest

/-- Outlines that are alike give quests that are alike, warnings and faults included. -/
theorem ofOutline_alike (schema : Schema) (id : Number) {outline outline' : Outline}
    (alike : outline.Alike outline') :
    Agree Draft.Alike (ofOutline schema id outline) (ofOutline schema id outline') := by
  have hTake : Agree Draft.Alike ((Draft.start id).takeAll schema outline.events)
      ((Draft.start id).takeAll schema outline'.events) :=
    Draft.takeAll_alike (Draft.start id) 0 schema alike.events
  have hFault := alike.fault
  unfold ofOutline
  revert hTake hFault
  generalize (Draft.start id).takeAll schema outline.events = taken
  generalize (Draft.start id).takeAll schema outline'.events = taken'
  generalize outline.fault = fault
  generalize outline'.fault = fault'
  rintro (hDraft | hFirst) hFault
  · cases hFault with
    | none => exact Agree.ok hDraft
    | some hFault => exact Agree.error hFault
  · exact Agree.error hFirst

/-- Scripts of one layout mean the same. Both give the same quest, with the same cached texts, and the
same warnings, or both are refused for the same reason on the same line. -/
theorem parse_eq_of_sameLayout (schema : Schema) (id : Number) {text text' : String}
    {tokens tokens' : List Token} (hTokens : tokenize text = .ok tokens)
    (hTokens' : tokenize text' = .ok tokens') (hLayout : SameLayout tokens tokens') :
    (parse schema id text).mapError (fun fault => (fault.reason, fault.line)) =
      (parse schema id text').mapError fun fault => (fault.reason, fault.line) := by
  have aligned := hLayout.aligned (tokenize_clears hTokens) (tokenize_clears hTokens')
  have hDraft := ofOutline_alike schema id (Script.outlineFrom_alike .top aligned)
  simp only [parse, hTokens, hTokens', ofTokens, Outline.ofTokens]
  revert hDraft
  generalize ofOutline schema id (Script.outlineFrom .top tokens) = left
  generalize ofOutline schema id (Script.outlineFrom .top tokens') = right
  rintro (@⟨draft, _, column, rfl⟩ | hFault)
  · rfl
  · simp only [Except.map, Except.mapError, hFault.reason, hFault.line]

/-- Another indentation, a comment, and gaps of other widths. The joined argument `1a` stays in one
piece. -/
theorem parse_eq_of_sameLayout_sample :
    let text := "state A \x7b Give(1a, \"b\") \x7d\n"
    let text' := "  state\tA\x7bGive ( 1a,\"b\" )  \x7d // done\n\t"
    ∃ tokens tokens', tokenize text = .ok tokens ∧ tokenize text' = .ok tokens' ∧
      SameLayout tokens tokens' ∧
      (parse Schema.empty 7 text).mapError (fun fault => (fault.reason, fault.line)) =
        (parse Schema.empty 7 text').mapError fun fault => (fault.reason, fault.line) := by
  intro text text'
  have hTokens : tokenize text = .ok ((tokenize text).toOption.getD []) := by decide +kernel
  have hTokens' : tokenize text' = .ok ((tokenize text').toOption.getD []) := by decide +kernel
  have hLayout : SameLayout ((tokenize text).toOption.getD []) ((tokenize text').toOption.getD []) :=
    ⟨by decide +kernel, by decide +kernel⟩
  exact ⟨_, _, hTokens, hTokens', hLayout,
    parse_eq_of_sameLayout Schema.empty 7 hTokens hTokens' hLayout⟩

/-- A gap that opens between two tokens of one argument is part of the argument. -/
example : ((parse Schema.empty 7 "state A \x7b Give(1a) \x7d").toOption.map fun result =>
      result.1.states.flatMap fun state => state.actions.map Action.rawText) = some ["Give(1a);"] ∧
    ((parse Schema.empty 7 "state A \x7b Give(1 a) \x7d").toOption.map fun result =>
      result.1.states.flatMap fun state => state.actions.map Action.rawText) = some ["Give(1 a);"] := by
  decide +kernel

end Quest

end QuestScript

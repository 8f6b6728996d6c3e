import QuestScript.Quest.Template
/-!
Edits of a quest, each as a whole. An edit that touches a call makes the text of that call anew.

Here no text is too long to be made, and an edit either does all of what it says or nothing. How an
edit is carried out, and what is left of one that an integer stops on the way, is said with the edits
in place.
-/

namespace QuestScript

/-- What of a block an edit touches first. -/
inductive BlockPart where
  | description
  | actions
  | rules
deriving DecidableEq, Repr

def BlockPart.name : BlockPart → String
  | .description => "description"
  | .actions => "actions"
  | .rules => "rules"

/-- Why an edit fails. An integer that is not converted stops it before a write, or after one, where
the text of a call is made anew. -/
inductive EditError where
  | stateExists (name : String)
  | noState (name : String)
  | noSlot
  | noParam
  | noCall
  | noMain (part : BlockPart)
  | indexTooFar
  | oversize (fault : Integer.Oversize)
  | unwritten (fault : Integer.Oversize)
deriving DecidableEq, Repr

def EditError.message : EditError → String
  | .stateExists name => "State '" ++ name ++ "' already exists"
  | .noState name => "No state named '" ++ name ++ "'"
  | .noSlot => "list index out of range"
  | .noParam => "list assignment index out of range"
  | .noCall => "list index out of range"
  | .noMain part => "'NoneType' object has no attribute '" ++ part.name ++ "'"
  | .indexTooFar => Integer.notIndexSized
  | .oversize fault => fault.message
  | .unwritten fault => fault.message

/-- The error for an index without a place: the given one, unless the index is too far from zero
for any list. -/
def EditError.ofIndex (missing : EditError) (index : Int) : EditError :=
  if Integer.isIndexSized index then missing else .indexTooFar

/-- The place that an index means in a list of some length. An index below zero counts from the
end. -/
def place? (length : Nat) (index : Int) : Option Nat :=
  if 0 ≤ index then (if index < length then some index.toNat else none)
  else if -(length : Int) ≤ index then some (length + index).toNat
  else none

/-! ### Values -/

/-- What an editor puts into an argument. -/
inductive EditValue where
  | param (param : Param)
  | null
  | bool (value : Bool)
  | number (value : Number)
  | string (value : String)
deriving DecidableEq, Repr

namespace EditValue

def text : EditValue → String
  | .param tagged => tagged.valueText
  | .null => "None"
  | .bool true => "True"
  | .bool false => "False"
  | .number x => x.text
  | .string value => value

/-- The argument where no slot is declared: an integer for an integer or a truth value, and text
for all else. -/
def toParam : EditValue → Param
  | .param tagged => tagged
  | .bool value => .int (if value then 1 else 0)
  | .number (.int value) => .int value
  | value => .quoted value.text

/-- The argument in a declared slot. In a string slot no value is the empty text; in an integer
slot all but integers are the integer that their text begins with. -/
def toParamIn (value : EditValue) : Schema.SlotType → Param
  | .string =>
    match value with
    | .null => .quoted ""
    | value => .quoted value.text
  | .integer =>
    match value with
    | .param (.int n) => .int n
    | .number (.int n) => .int n
    | value => .int (Integer.leadingD value.text 0)

/-- The fault of converting a value for a declared slot: an integer is taken as text in a string slot,
and all but integers are read in an integer slot. -/
def slotFault? (value : EditValue) : Schema.SlotType → Option Integer.Oversize
  | .string =>
    match value with
    | .param (.int n) => Integer.textFault? n
    | .number (.int n) => Integer.textFault? n
    | _ => none
  | .integer =>
    match value with
    | .param (.int _) => none
    | .number (.int _) => none
    | value => Integer.leadingInFault? value.text

end EditValue

/-- Writes a value to an argument. The slot is looked up first: an index past the slots has none,
and one below zero counts from the last slot. Then the value is converted. -/
def setParam (slots : List Schema.Slot) (params : List Param) (index : Int) (value : EditValue) :
    Except EditError (List Param) :=
  let write (param : Param) : Except EditError (List Param) :=
    match place? params.length index with
    | some place => .ok (params.set place param)
    | none => .error (EditError.noParam.ofIndex index)
  if index < slots.length then
    match (place? slots.length index).bind fun place => slots[place]? with
    | some slot =>
      match value.slotFault? slot.type with
      | some fault => .error (.oversize fault)
      | none => write (value.toParamIn slot.type)
    | none => .error (EditError.noSlot.ofIndex index)
  else write value.toParam

/-! ### Calls -/

namespace Action

def fresh (schema : Schema) (type : String) : Action :=
  refresh schema ⟨type, (schema.actionSlots type).map fun slot => Param.blank slot.type, ""⟩

def setParam (schema : Schema) (action : Action) (index : Int) (value : EditValue) :
    Except EditError Action :=
  (QuestScript.setParam (schema.actionSlots action.type) action.params index value).map
    fun params => refresh schema { action with params }

end Action

namespace Rule

def fresh (schema : Schema) (type goto : String) : Rule :=
  refresh schema ⟨type, (schema.ruleSlots type).map fun slot => Param.blank slot.type, goto, ""⟩

/-- Changes the type of a rule and keeps its target. The arguments become blank. -/
def changeType (schema : Schema) (rule : Rule) (type : String) : Rule :=
  fresh schema type rule.goto

def setParam (schema : Schema) (rule : Rule) (index : Int) (value : EditValue) :
    Except EditError Rule :=
  (QuestScript.setParam (schema.ruleSlots rule.type) rule.params index value).map
    fun params => refresh schema { rule with params }

def setGoto (schema : Schema) (rule : Rule) (goto : String) : Rule :=
  refresh schema { rule with goto }

end Rule

/-! ### States -/

/-- The candidate of a number for the name of a new state: the base, then the base with a number. -/
def stateNameCandidate (base : String) : Nat → String
  | 0 => base
  | number + 1 => base ++ toString (number + 1)

/-- The first candidate from a number on that is not taken, out of a count of them. -/
def freeStateName (taken : List String) (base : String) : (count number : Nat) → String
  | 0, number => stateNameCandidate base number
  | count + 1, number =>
    if taken.contains (stateNameCandidate base number) then
      freeStateName taken base count (number + 1)
    else stateNameCandidate base number

namespace State

/-- Puts the content of a template in place of the content of a state. The name stays, and so does
the description if the template has none. -/
def applyTemplate (schema : Schema) (state : State) (template : Template) : State :=
  refresh schema
    { state with
      description :=
        if template.description.isEmpty then state.description else template.description
      actions := template.actions
      rules := template.rules }

/-- The state with its references to one state pointing to another. Only calls that change are
written anew. -/
def redirect (schema : Schema) (old new : String) (state : State) : State :=
  { state with
    rules := state.rules.map fun rule =>
      if rule.goto = old then rule.setGoto schema new else rule
    actions := state.actions.map fun action =>
      if action.navigationTarget? = some old then
        Action.refresh schema { action with params := .quoted new :: action.params.tail }
      else action }

end State

/-- The target with a reference to one state pointing to another. -/
def RandomTarget.redirect (old new : String) (target : RandomTarget) : RandomTarget :=
  if target.state = old then { target with state := new } else target

/-- The random block with its references to one state pointing to another. -/
def RandomBlock.redirect (old new : String) (block : RandomBlock) : RandomBlock :=
  { block with targets := block.targets.map (RandomTarget.redirect old new) }

/-- The list with the first item that passes a test replaced by some items. -/
def replaceFirst {α : Type} (test : α → Bool) (items : α → List α) : List α → List α
  | [] => []
  | item :: rest => if test item then items item ++ rest else item :: replaceFirst test items rest

namespace Quest

/-- The first free name out of the base, and the base with one, two and so on. One of the first
names is free, as many as there are states and one more. -/
def newStateName (quest : Quest) (base : String) : String :=
  freeStateName quest.stateNames base quest.states.length 0

/-- The name of a new state when none is given. -/
def newStateBase : String := "NewState"

def addState (quest : Quest) (name : Option String) : Except EditError (State × Quest) :=
  let name' := name.getD (quest.newStateName newStateBase)
  if name.isSome && (quest.state? name').isSome then .error (.stateExists name')
  else
    let state := State.named name'
    .ok (state, { quest with states := quest.states ++ [state] })

/-- Inserts a copy of a state right after it. -/
def duplicateState (quest : Quest) (name : String) (newName : Option String) :
    Except EditError (State × Quest) :=
  match quest.state? name with
  | none => .error (.noState name)
  | some source =>
    let newName' := newName.getD (quest.newStateName (name ++ "Copy"))
    if newName.isSome && (quest.state? newName').isSome then .error (.stateExists newName')
    else
      let copy := { source with name := newName' }
      .ok (copy,
        { quest with
          states := replaceFirst (fun state => state.name = name) (fun state => [state, copy])
            quest.states })

/-- Removes a state. References to it stay. -/
def removeState (quest : Quest) (name : String) : Except EditError (State × Quest) :=
  match quest.state? name with
  | none => .error (.noState name)
  | some state =>
    .ok (state,
      { quest with
        states := replaceFirst (fun state => state.name = name) (fun _ => []) quest.states })

/-- Renames a state and every reference to it. -/
def renameState (schema : Schema) (quest : Quest) (old new : String) :
    Except EditError (State × Quest) :=
  match quest.state? old with
  | none => .error (.noState old)
  | some state =>
    if new = old then .ok (state, quest)
    else if (quest.state? new).isSome then .error (.stateExists new)
    else
      let renamed := replaceFirst (fun state => state.name = old)
        (fun state => [{ state with name := new }]) quest.states
      .ok ((({ state with name := new } : State).redirect schema old new),
        { quest with
          states := renamed.map (State.redirect schema old new)
          main := quest.main.map (State.redirect schema old new)
          random := quest.random.map (RandomBlock.redirect old new) })

end Quest

/-! ### Places -/

/-- A block of statements: the main block, or a state by its index. -/
inductive BlockRef where
  | main
  | state (index : Int)
deriving DecidableEq, Repr

/-- The error for a reference to no block. Where there is no main block, it names the part that was
to be touched. -/
def BlockRef.missing (part : BlockPart) : BlockRef → EditError
  | .main => .noMain part
  | .state index => EditError.noCall.ofIndex index

namespace Quest

def block? (quest : Quest) : BlockRef → Option State
  | .main => quest.main
  | .state index => (place? quest.states.length index).bind fun place => quest.states[place]?

def setBlock (quest : Quest) (ref : BlockRef) (block : State) : Quest :=
  match ref with
  | .main => { quest with main := some block }
  | .state index =>
    match place? quest.states.length index with
    | some place => { quest with states := quest.states.set place block }
    | none => quest

/-- Changes the block of a reference, of which a part is touched first. -/
def editBlock {α : Type} (quest : Quest) (ref : BlockRef) (part : BlockPart)
    (change : State → Except EditError (α × State)) : Except EditError (α × Quest) :=
  match quest.block? ref with
  | none => .error (ref.missing part)
  | some block =>
    match change block with
    | .error error => .error error
    | .ok (result, block) => .ok (result, quest.setBlock ref block)

end Quest

namespace State

def editAction (state : State) (index : Int) (change : Action → Except EditError Action) :
    Except EditError (Action × State) :=
  match place? state.actions.length index with
  | none => .error (EditError.noCall.ofIndex index)
  | some place =>
    match state.actions[place]? with
    | none => .error .noCall
    | some action =>
      match change action with
      | .error error => .error error
      | .ok action => .ok (action, { state with actions := state.actions.set place action })

def editRule (state : State) (index : Int) (change : Rule → Except EditError Rule) :
    Except EditError (Rule × State) :=
  match place? state.rules.length index with
  | none => .error (EditError.noCall.ofIndex index)
  | some place =>
    match state.rules[place]? with
    | none => .error .noCall
    | some rule =>
      match change rule with
      | .error error => .error error
      | .ok rule => .ok (rule, { state with rules := state.rules.set place rule })

end State

/-! ### Edits -/

/-- An edit. Calls are meant by their block and their index in it. -/
inductive Edit where
  | addState (name : Option String)
  | duplicateState (name : String) (newName : Option String)
  | removeState (name : String)
  | renameState (old new : String)
  | addAction (block : BlockRef) (type : String)
  | addRule (block : BlockRef) (type goto : String)
  | changeActionType (block : BlockRef) (action : Int) (type : String)
  | changeRuleType (block : BlockRef) (rule : Int) (type : String)
  | setActionParam (block : BlockRef) (action index : Int) (value : EditValue)
  | setRuleParam (block : BlockRef) (rule index : Int) (value : EditValue)
  | setRuleGoto (block : BlockRef) (rule : Int) (goto : String)
  | applyTemplate (block : BlockRef) (template : Template)
deriving DecidableEq, Repr

/-- What an edit added, removed or changed. -/
inductive Edited where
  | state (state : State)
  | action (action : Action)
  | rule (rule : Rule)
deriving DecidableEq, Repr

/-- The result and the quest of an edit, with the result tagged. -/
def tagged {α : Type} (tag : α → Edited) :
    Except EditError (α × Quest) → Except EditError (Edited × Quest)
  | .error error => .error error
  | .ok (result, quest) => .ok (tag result, quest)

/-- What of a block a template replaces first. -/
def Template.firstPart (template : Template) : BlockPart :=
  if template.description.isEmpty then .actions else .description

/-- What an edit does as a whole. -/
def Edit.apply (schema : Schema) (quest : Quest) : Edit → Except EditError (Edited × Quest)
  | .addState name => tagged .state (quest.addState name)
  | .duplicateState name newName => tagged .state (quest.duplicateState name newName)
  | .removeState name => tagged .state (quest.removeState name)
  | .renameState old new => tagged .state (quest.renameState schema old new)
  | .addAction block type =>
    tagged .action (quest.editBlock block .actions fun state =>
      let action := Action.fresh schema type
      .ok (action, { state with actions := state.actions ++ [action] }))
  | .addRule block type goto =>
    tagged .rule (quest.editBlock block .rules fun state =>
      let rule := Rule.fresh schema type goto
      .ok (rule, { state with rules := state.rules ++ [rule] }))
  | .changeActionType block action type =>
    tagged .action (quest.editBlock block .actions fun state =>
      state.editAction action fun _ => .ok (Action.fresh schema type))
  | .changeRuleType block rule type =>
    tagged .rule (quest.editBlock block .rules fun state =>
      state.editRule rule fun rule => .ok (rule.changeType schema type))
  | .setActionParam block action index value =>
    tagged .action (quest.editBlock block .actions fun state =>
      state.editAction action fun action => action.setParam schema index value)
  | .setRuleParam block rule index value =>
    tagged .rule (quest.editBlock block .rules fun state =>
      state.editRule rule fun rule => rule.setParam schema index value)
  | .setRuleGoto block rule goto =>
    tagged .rule (quest.editBlock block .rules fun state =>
      state.editRule rule fun rule => .ok (rule.setGoto schema goto))
  | .applyTemplate block template =>
    tagged .state (quest.editBlock block template.firstPart fun state =>
      let state := state.applyTemplate schema template
      .ok (state, state))

end QuestScript

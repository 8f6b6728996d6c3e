import QuestScript.Quest.Editing
import QuestScript.Quest.Refresh
/-!
Edits in place. An editor holds one quest and writes to it as an edit goes along: it reads, checks,
converts and writes in some order, and what it wrote before an edit failed is not taken back.
-/

namespace QuestScript

/-- Reads and writes of something in place, which may fail. What was written before the failure stays
written. -/
abbrev InPlace (σ α : Type) := EStateM EditError σ α

/-- The item that an index means. -/
def item? {α : Type} (items : List α) (index : Int) : Option α :=
  (place? items.length index).bind fun place => items[place]?

def setItem {α : Type} (items : List α) (index : Int) (item : α) : List α :=
  match place? items.length index with
  | some place => items.set place item
  | none => items

/-- The argument that a value becomes in a slot of a type, or where no slot is declared. -/
def EditValue.typed (value : EditValue) : Option Schema.SlotType → Except EditError Param
  | some type =>
    match value.slotFault? type with
    | some fault => .error (.oversize fault)
    | none => .ok (value.toParamIn type)
  | none => .ok value.toParam

namespace InPlace

variable {σ τ α : Type}

/-- Edits a part of a whole. What is written to the part is written to the whole, and so it is when
the edit of the part fails. -/
def onPart (part? : σ → Option τ) (put : σ → τ → σ) (missing : EditError) (edit : InPlace τ α) :
    InPlace σ α := fun whole =>
  match part? whole with
  | none => .error missing whole
  | some part =>
    match edit.run part with
    | .ok result part => .ok result (put whole part)
    | .error error part => .error error (put whole part)

/-- Edits the block of a reference, of which a part is touched first. -/
def onBlock (ref : BlockRef) (part : BlockPart) (edit : InPlace State α) : InPlace Quest α :=
  onPart (fun quest => quest.block? ref) (fun quest block => quest.setBlock ref block)
    (ref.missing part) edit

def onAction (index : Int) (edit : InPlace Action α) : InPlace State α :=
  onPart (fun state => item? state.actions index)
    (fun state action => { state with actions := setItem state.actions index action })
    (EditError.noCall.ofIndex index) edit

def onRule (index : Int) (edit : InPlace Rule α) : InPlace State α :=
  onPart (fun state => item? state.rules index)
    (fun state rule => { state with rules := setItem state.rules index rule })
    (EditError.noCall.ofIndex index) edit

/-- Makes texts anew, after something was written. -/
def written (refresh : EStateM Integer.Oversize σ Unit) : InPlace σ Unit :=
  EStateM.adaptExcept EditError.unwritten refresh

/-! ### States -/

def requireState (name : String) : InPlace Quest State := do
  match (← get).state? name with
  | some state => return state
  | none => throw (.noState name)

def requireFree (name : String) : InPlace Quest Unit := do
  if ((← get).state? name).isSome then throw (.stateExists name)

/-- The name for a state that is added: the given one, which must be free, or a free one. -/
def nameFor (given : Option String) (base : String) : InPlace Quest String := do
  match given with
  | some name =>
    requireFree name
    return name
  | none => return (← get).newStateName base

def addState (name : Option String) : InPlace Quest State := do
  let name' ← nameFor name Quest.newStateBase
  let state := State.named name'
  modify fun quest => { quest with states := quest.states ++ [state] }
  return state

def duplicateState (name : String) (newName : Option String) : InPlace Quest State := do
  let source ← requireState name
  let newName' ← nameFor newName (name ++ "Copy")
  let copy := { source with name := newName' }
  modify fun quest =>
    { quest with
      states := replaceFirst (fun state => state.name = name) (fun state => [state, copy])
        quest.states }
  return copy

/-- Removes a state. References to it stay. -/
def removeState (name : String) : InPlace Quest State := do
  let state ← requireState name
  modify fun quest =>
    { quest with
      states := replaceFirst (fun state => state.name = name) (fun _ => []) quest.states }
  return state

/-- Lets a rule go to another state if it goes to one. -/
def redirectRule (schema : Schema) (old new : String) : InPlace Rule Unit := do
  if (← get).goto = old then
    modify fun rule => { rule with goto := new }
    written (Refresh.rule schema)

/-- Lets an action lead to another state if it leads to one. To find out, its first argument is taken
as text. -/
def redirectAction (schema : Schema) (old new : String) : InPlace Action Unit := do
  let action ← get
  if let some fault := action.targetFault? then throw (.oversize fault)
  if action.navigationTarget? = some old then
    set { action with params := .quoted new :: action.params.tail }
    written (Refresh.action schema)

/-- Lets the calls of a block lead to another state, the rules before the actions. -/
def redirect (schema : Schema) (old new : String) : InPlace State Unit := do
  discard (Along.rules (redirectRule schema old new))
  discard (Along.actions (redirectAction schema old new))

/-- Renames a state, then the references to it in the states, in the main block and in the random
blocks. The state has its new name also if a reference stops that. -/
def renameState (schema : Schema) (old new : String) : InPlace Quest State := do
  let state ← requireState old
  if new = old then return state
  requireFree new
  modify fun quest =>
    { quest with
      states := replaceFirst (fun state => state.name = old)
        (fun state => [{ state with name := new }]) quest.states }
  discard (Along.states (redirect schema old new))
  discard (Along.main (redirect schema old new))
  modify fun quest => { quest with random := quest.random.map (RandomBlock.redirect old new) }
  return ({ state with name := new } : State).redirect schema old new

/-! ### Calls -/

/-- The type of the slot of an index, if the index is not past the slots. -/
def slotType? (slots : List Schema.Slot) (index : Int) : InPlace σ (Option Schema.SlotType) :=
  if index < slots.length then
    match item? slots index with
    | some slot => return some slot.type
    | none => throw (EditError.noSlot.ofIndex index)
  else return none

/-- The arguments with a value in the place of one of them: the slot is looked up, the value is
converted, and then there must be an argument at the index. -/
def withParam (slots : List Schema.Slot) (params : List Param) (index : Int) (value : EditValue) :
    InPlace σ (List Param) := do
  let type? ← slotType? slots index
  let param ← MonadExcept.ofExcept (value.typed type?)
  match place? params.length index with
  | some place => return params.set place param
  | none => throw (EditError.noParam.ofIndex index)

/-- Writes a value to an argument of an action, and then makes its text anew. -/
def setActionParam (schema : Schema) (index : Int) (value : EditValue) : InPlace Action Action := do
  let action ← get
  let params ← withParam (schema.actionSlots action.type) action.params index value
  set { action with params }
  written (Refresh.action schema)
  get

/-- Writes a value to an argument of a rule, and then makes its text anew. -/
def setRuleParam (schema : Schema) (index : Int) (value : EditValue) : InPlace Rule Rule := do
  let rule ← get
  let params ← withParam (schema.ruleSlots rule.type) rule.params index value
  set { rule with params }
  written (Refresh.rule schema)
  get

/-- Changes the type of an action, then its arguments, then its text. -/
def changeActionType (schema : Schema) (type : String) : InPlace Action Action := do
  let fresh := Action.fresh schema type
  modify fun action => { action with type := fresh.type }
  modify fun action => { action with params := fresh.params }
  modify fun action => { action with rawText := fresh.rawText }
  get

/-- Changes the type of a rule, then its arguments, then its text. The target stays. -/
def changeRuleType (schema : Schema) (type : String) : InPlace Rule Rule := do
  let fresh := Rule.fresh schema type (← get).goto
  modify fun rule => { rule with type := fresh.type }
  modify fun rule => { rule with params := fresh.params }
  modify fun rule => { rule with rawText := fresh.rawText }
  get

/-- Changes the target of a rule, then its text. -/
def setRuleGoto (schema : Schema) (goto : String) : InPlace Rule Rule := do
  modify fun rule => { rule with goto }
  written (Refresh.rule schema)
  get

def addAction (schema : Schema) (type : String) : InPlace State Action := do
  let action := Action.fresh schema type
  modify fun state => { state with actions := state.actions ++ [action] }
  return action

def addRule (schema : Schema) (type goto : String) : InPlace State Rule := do
  let rule := Rule.fresh schema type goto
  modify fun state => { state with rules := state.rules ++ [rule] }
  return rule

/-- Puts the content of a template in place of the content of a state: the description, if the
template has one, the actions, the rules, and then the texts of them, one by one. -/
def applyTemplate (schema : Schema) (template : Template) : InPlace State State := do
  unless template.description.isEmpty do
    modify fun state => { state with description := template.description }
  modify fun state => { state with actions := template.actions }
  modify fun state => { state with rules := template.rules }
  written (Refresh.state schema)
  get

end InPlace

/-- Carries out an edit in place. -/
def Edit.inPlace (schema : Schema) : Edit → InPlace Quest Edited
  | .addState name => .state <$> InPlace.addState name
  | .duplicateState name newName => .state <$> InPlace.duplicateState name newName
  | .removeState name => .state <$> InPlace.removeState name
  | .renameState old new => .state <$> InPlace.renameState schema old new
  | .addAction block type => .action <$> InPlace.onBlock block .actions (.addAction schema type)
  | .addRule block type goto => .rule <$> InPlace.onBlock block .rules (.addRule schema type goto)
  | .changeActionType block action type =>
    .action <$> InPlace.onBlock block .actions (.onAction action (.changeActionType schema type))
  | .changeRuleType block rule type =>
    .rule <$> InPlace.onBlock block .rules (.onRule rule (.changeRuleType schema type))
  | .setActionParam block action index value =>
    .action <$>
      InPlace.onBlock block .actions (.onAction action (.setActionParam schema index value))
  | .setRuleParam block rule index value =>
    .rule <$> InPlace.onBlock block .rules (.onRule rule (.setRuleParam schema index value))
  | .setRuleGoto block rule goto =>
    .rule <$> InPlace.onBlock block .rules (.onRule rule (.setRuleGoto schema goto))
  | .applyTemplate block template =>
    .state <$> InPlace.onBlock block template.firstPart (.applyTemplate schema template)

namespace Edit

/-- The quest after an edit, as a failure leaves it if the edit fails. -/
def run (schema : Schema) (quest : Quest) (edit : Edit) : Quest :=
  match (edit.inPlace schema).run quest with
  | .ok _ quest => quest
  | .error _ quest => quest

def runAll (schema : Schema) (quest : Quest) (edits : List Edit) : Quest :=
  edits.foldl (run schema) quest

/-- The errors of edits in turn, for those that fail. -/
def errorsOf (schema : Schema) (quest : Quest) : List Edit → List EditError
  | [] => []
  | edit :: edits =>
    let rest := errorsOf schema (edit.run schema quest) edits
    match (edit.inPlace schema).run quest with
    | .ok _ _ => rest
    | .error error _ => error :: rest

end Edit

end QuestScript

import QuestScript.Quest.Printer
import QuestScript.Quest.Validation
import QuestScript.Script.Lexer
import QuestScript.Script.Outline
/-!
Reading quests from scripts: the events of a script, taken one by one, build up a quest under a
schema. A script with a fault gives no quest, and neither does one with an integer that has too many
digits to be converted; what the schema does not know is only warned of.
-/

namespace QuestScript

open Script (Arg Call Event Malformed Outline Section Token)

/-- A block whose closing brace has not come yet. -/
structure OpenBlock where
  block : Section
  opener : Token
  state : State
  described : Bool
deriving DecidableEq, Repr

/-- A quest that is being read, with the block that is open and the warnings so far. -/
structure Draft where
  quest : Quest
  current : Option OpenBlock
  warnings : List Warning
deriving DecidableEq, Repr

namespace Draft

def start (id : Number) : Draft := ⟨Quest.blank id, none, []⟩

def warn (draft : Draft) (warning : Warning) : Draft :=
  { draft with warnings := draft.warnings ++ [warning] }

/-- The quest with an attribute that it has a field for. Without a value the name is empty, the
version one, a gate zero, and a flag set. -/
def setAttribute (quest : Quest) (known : Attribute) (value : Option Arg) : Quest :=
  match known with
  | .questName => { quest with name := (value.map Arg.text).getD "" }
  | .version =>
    { quest with version := .int ((value.map fun arg => Integer.leadingD arg.text 1).getD 1) }
  | .gate gate =>
    let number : Int := (value.map fun arg => Integer.leadingD arg.text 0).getD 0
    { quest with gates := quest.gates.set gate (some (.int number)) }
  | .flag flag =>
    let isSet := (value.map fun arg => Integer.leadingD arg.text 0 != 0).getD true
    { quest with flags := quest.flags.set flag isSet }

/-- The fault of reading the value of an attribute. The name of a quest is not converted, and what
has no field is read as it is written. -/
def attributeFault? (key : Token) (value : Option Arg) : Option Integer.Oversize :=
  match Attribute.ofKey? key.value with
  | some .questName => none
  | some _ => value.bind fun arg => Integer.leadingInFault? arg.text
  | none => value.bind Param.sniffFault?

/-- Takes an attribute. One without a field is kept by its key as it was written. -/
def takeAttribute (draft : Draft) (key : Token) (value : Option Arg) : Draft :=
  match Attribute.ofKey? key.value with
  | some known => { draft with quest := setAttribute draft.quest known value }
  | none =>
    { draft with
      quest :=
        { draft.quest with extra := draft.quest.extra.put key.value (value.map Param.sniff) } }
      |>.warn (.unknownAttribute key.line key.value)

def openBlock (draft : Draft) (block : Section) (opener : Token) : Draft :=
  { draft with current := some ⟨block, opener, State.named block.name, false⟩ }

def updateBlock (draft : Draft) (change : OpenBlock → OpenBlock) : Draft :=
  { draft with current := draft.current.map change }

/-- Takes a description. Of several in a block the last one counts. -/
def describe (draft : Draft) (keyword : Token) (text : String) : Draft :=
  let repeated := draft.current.filter OpenBlock.described
  let described := draft.updateBlock fun current =>
    { current with state := { current.state with description := text }, described := true }
  match repeated with
  | some current => described.warn (.duplicateDescription keyword.line current.block)
  | none => described

def addAction (draft : Draft) (action : Action) : Draft :=
  draft.updateBlock fun current =>
    { current with
      state := { current.state with actions := current.state.actions ++ [action] } }

def addRule (draft : Draft) (rule : Rule) : Draft :=
  draft.updateBlock fun current =>
    { current with state := { current.state with rules := current.state.rules ++ [rule] } }

/-- The action that a call without a goto clause is. -/
def actionOf (schema : Schema) (call : Call) : Action :=
  let name := call.name.value
  Action.refresh schema ⟨name, Param.ofArgs call.args (schema.actionSlots name), ""⟩

/-- The rule that a call with a goto clause is. -/
def ruleOf (schema : Schema) (call : Call) (goto : String) : Rule :=
  let name := call.name.value
  Rule.refresh schema ⟨name, Param.ofArgs call.args (schema.ruleSlots name), goto, ""⟩

/-- What comes of an integer that is converted on the way, and of one that is not. -/
def unlessOversize (fault? : Option Integer.Oversize) (draft : Draft) : Except Malformed Draft :=
  (Integer.guarded fault? draft).mapError Malformed.oversize

/-- Takes a call: a rule if it has a goto clause, else an action, which must not be known as a rule
only. Its arguments are read after that. -/
def call (schema : Schema) (draft : Draft) (call : Call) : Except Malformed Draft :=
  let name := call.name.value
  match call.goto with
  | some goto =>
    let draft :=
      if schema.rules.contains name then draft else draft.warn (.unknownRule call.name.line name)
    unlessOversize (Param.argsFault? call.args (schema.ruleSlots name))
      (draft.addRule (ruleOf schema call goto))
  | none =>
    let fault? := Param.argsFault? call.args (schema.actionSlots name)
    if schema.actions.contains name then
      unlessOversize fault? (draft.addAction (actionOf schema call))
    else if schema.rules.contains name then .error (.atToken (.noGotoClause name) call.name)
    else
      unlessOversize fault?
        ((draft.warn (.unknownAction call.name.line name)).addAction (actionOf schema call))

/-- Closes the open block and adds it to the quest. State names do not repeat. -/
def close (draft : Draft) : Except Malformed Draft :=
  match draft.current with
  | none => .ok draft
  | some current =>
    let quest := draft.quest
    match current.block with
    | .main => .ok { draft with quest := { quest with main := some current.state }, current := none }
    | .state name =>
      if (quest.state? name).isSome then .error (.atToken (.duplicateState name) current.opener)
      else
        .ok { draft with
              quest := { quest with states := quest.states ++ [current.state] }, current := none }

/-- Takes a random block. Their names do not repeat. -/
def addRandom (draft : Draft) (opener : Token) (name : String) (targets : List (String × Int)) :
    Except Malformed Draft :=
  let quest := draft.quest
  if (quest.random? name).isSome then .error (.atToken (.duplicateRandom name) opener)
  else
    let block : RandomBlock := ⟨name, targets.map fun (state, weight) => ⟨state, .int weight⟩⟩
    .ok { draft with quest := { quest with random := quest.random ++ [block] } }

def take (schema : Schema) (draft : Draft) : Event → Except Malformed Draft
  | .attr key value => unlessOversize (attributeFault? key value) (draft.takeAttribute key value)
  | .openMain opener =>
    if draft.quest.main.isSome then .error (.atToken .duplicateMain opener)
    else .ok (draft.openBlock .main opener)
  | .openState opener name => .ok (draft.openBlock (.state name) opener)
  | .desc keyword text => .ok (draft.describe keyword text)
  | .call call => Draft.call schema draft call
  | .close => draft.close
  | .random opener name targets => draft.addRandom opener name targets

/-- Takes events in turn, up to the first one with a fault. -/
def takeAll (schema : Schema) (draft : Draft) (events : List Event) : Except Malformed Draft :=
  events.foldlM (take schema) draft

end Draft

namespace Quest

/-- The draft of an outline. A fault of what the script says counts before a fault of grammar that
comes after it. -/
def ofOutline (schema : Schema) (id : Number) (outline : Outline) : Except Malformed Draft :=
  match (Draft.start id).takeAll schema outline.events with
  | .error fault => .error fault
  | .ok draft =>
    match outline.fault with
    | some fault => .error fault
    | none => .ok draft

/-- The quest of a list of tokens, with the warnings in the order in which they arose; those about
missing states come last. -/
def ofTokens (schema : Schema) (id : Number) (tokens : List Token) :
    Except Malformed (Quest × List Warning) :=
  (ofOutline schema id (Outline.ofTokens tokens)).map fun draft =>
    (draft.quest, draft.warnings ++ draft.quest.danglingGotos)

/-- The quest of a script, with its warnings. -/
def parse (schema : Schema) (id : Number) (text : String) :
    Except Malformed (Quest × List Warning) :=
  match Script.tokenize text with
  | .error fault => .error fault
  | .ok tokens => ofTokens schema id tokens

end Quest

end QuestScript

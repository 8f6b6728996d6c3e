import QuestScript.Quest.Basic
/-!
Writing quests as scripts. The text of every call is made from its type, its arguments and the
schema each time; the cached text is replaced and never used. What the schema does not know is
written as it stands.

What would be written if there were no limit on digits is printed; it is written only if every
integer in it is converted. The faults are looked for in the order in which the text is made.
-/

namespace QuestScript

/-- Characters that begin a name that needs no quotes. -/
def isPlainStart (c : Char) : Bool := c.isAlpha || c = '_'

/-- Characters that continue a name that needs no quotes. -/
def isPlainChar (c : Char) : Bool := c.isAlphanum || c = '_'

def isPlainName (name : String) : Bool :=
  match name.toList with
  | [] => false
  | c :: rest => isPlainStart c && rest.all isPlainChar

/-- The text between double quotes. Nothing in it is escaped. -/
def inQuotes (text : String) : String := "\"" ++ text ++ "\""

/-- A name of a state or a target: without quotes if it is an ASCII identifier. -/
def printName (name : String) : String := if isPlainName name then name else inQuotes name

namespace Param

/-- An argument where no slot is declared: a text with quotes, unless it was written without and
is not empty. -/
def print : Param → String
  | .text value bare => if bare && !value.isEmpty then value else inQuotes value
  | .int value => toString value

/-- An argument in a declared slot: between quotes, or the integer that it begins with. -/
def printIn (param : Param) : Schema.SlotType → String
  | .string => inQuotes param.valueText
  | .integer =>
    match param with
    | .text value _ => toString (Integer.leadingD value 0)
    | .int value => toString value

/-- The fault of writing an argument in a declared slot. In an integer slot a text is read first. -/
def printInFault? (param : Param) : Schema.SlotType → Option Integer.Oversize
  | .string => param.valueFault?
  | .integer =>
    match param with
    | .text value _ => Integer.leadingInFault? value
    | .int value => Integer.textFault? value

def printList : List Param → List Schema.Slot → List String
  | [], _ => []
  | param :: params, [] => param.print :: printList params []
  | param :: params, slot :: slots => param.printIn slot.type :: printList params slots

def listFault? : List Param → List Schema.Slot → Option Integer.Oversize
  | [], _ => none
  | param :: params, [] => param.valueFault?.or (listFault? params [])
  | param :: params, slot :: slots => (param.printInFault? slot.type).or (listFault? params slots)

def writeList (params : List Param) (slots : List Schema.Slot) :
    Except Integer.Oversize (List String) :=
  Integer.guarded (listFault? params slots) (printList params slots)

end Param

/-- A call with its arguments between parentheses. -/
def printCall (name : String) (params : List Param) (slots : List Schema.Slot) : String :=
  name ++ "(" ++ ", ".intercalate (Param.printList params slots) ++ ")"

namespace Action

/-- The text of an action, with a semicolon where its signature has one. -/
def print (schema : Schema) (action : Action) : String :=
  printCall action.type action.params (schema.actionSlots action.type) ++
    (if schema.actionHasSemicolon action.type then ";" else "")

def fault? (schema : Schema) (action : Action) : Option Integer.Oversize :=
  Param.listFault? action.params (schema.actionSlots action.type)

def write (schema : Schema) (action : Action) : Except Integer.Oversize String :=
  Integer.guarded (action.fault? schema) (action.print schema)

def refresh (schema : Schema) (action : Action) : Action :=
  { action with rawText := action.print schema }

end Action

namespace Rule

/-- The text of a rule with its target. A rule never has a semicolon. -/
def print (schema : Schema) (rule : Rule) : String :=
  printCall rule.type rule.params (schema.ruleSlots rule.type) ++ " goto " ++ printName rule.goto

def fault? (schema : Schema) (rule : Rule) : Option Integer.Oversize :=
  Param.listFault? rule.params (schema.ruleSlots rule.type)

def write (schema : Schema) (rule : Rule) : Except Integer.Oversize String :=
  Integer.guarded (rule.fault? schema) (rule.print schema)

def refresh (schema : Schema) (rule : Rule) : Rule :=
  { rule with rawText := rule.print schema }

end Rule

/-- The first fault of writing the calls of a state: its actions come before its rules. -/
def State.fault? (schema : Schema) (state : State) : Option Integer.Oversize :=
  (state.actions.findSome? (Action.fault? schema)).or (state.rules.findSome? (Rule.fault? schema))

/-- The first fault of writing the calls of a quest, block by block. -/
def Quest.callFault? (schema : Schema) (quest : Quest) : Option Integer.Oversize :=
  quest.blocks.findSome? (State.fault? schema)

def State.refresh (schema : Schema) (state : State) : State :=
  { state with
    actions := state.actions.map (Action.refresh schema)
    rules := state.rules.map (Rule.refresh schema) }

/-- The quest with the cached text of every call made anew. -/
def Quest.refresh (schema : Schema) (quest : Quest) : Quest :=
  { quest with
    main := quest.main.map (State.refresh schema)
    states := quest.states.map (State.refresh schema) }

/-- Lines joined by line feeds, without one at the end. -/
def joinLines (lines : List String) : String := "\n".intercalate lines

/-- The description line of a state, which is left out when empty. -/
def State.descLines (pad : String) (state : State) : List String :=
  if state.description.isEmpty then [] else [pad ++ "desc " ++ inQuotes state.description]

/-- The lines between the braces of a block: description, actions, rules. -/
def State.bodyLines (schema : Schema) (pad : String) (state : State) : List String :=
  state.descLines pad ++
    state.actions.map (fun action => pad ++ action.print schema) ++
    state.rules.map (fun rule => pad ++ rule.print schema)

def printBlock (header : String) (lines : List String) : String :=
  joinLines ((header ++ " \x7b") :: lines ++ ["\x7d"])

def State.print (schema : Schema) (pad : String) (state : State) : String :=
  printBlock ("State " ++ inQuotes state.name) (state.bodyLines schema pad)

def State.write (schema : Schema) (pad : String) (state : State) :
    Except Integer.Oversize String :=
  Integer.guarded (state.fault? schema) (state.print schema pad)

def State.printMain (schema : Schema) (pad : String) (main : State) : String :=
  printBlock "Main" (main.bodyLines schema pad)

/-- A target with its weight, which is left out when it is one. -/
def RandomTarget.print (target : RandomTarget) : String :=
  printName target.state ++
    (if target.weight.sameValue 1 then "" else " " ++ target.weight.text)

/-- The fault of writing a target. A weight of one is not written. -/
def RandomTarget.fault? (target : RandomTarget) : Option Integer.Oversize :=
  if target.weight.sameValue 1 then none else target.weight.textFault?

def RandomBlock.print (pad : String) (block : RandomBlock) : String :=
  printBlock ("random " ++ inQuotes block.name)
    (block.targets.map fun target => pad ++ target.print)

def RandomBlock.fault? (block : RandomBlock) : Option Integer.Oversize :=
  block.targets.findSome? RandomTarget.fault?

def RandomBlock.write (pad : String) (block : RandomBlock) : Except Integer.Oversize String :=
  Integer.guarded block.fault? (block.print pad)

def printExtra : String × Option Param → String
  | (key, none) => key
  | (key, some value) => key ++ " = " ++ value.print

/-- The fault of writing an attribute outside of the fields of quests. -/
def extraFault? : String × Option Param → Option Integer.Oversize
  | (_, none) => none
  | (_, some value) => value.valueFault?

/-- The attributes of a quest, one a line: the name and the version always, gates and flags where
they are set, and the others in their order. -/
def Quest.attributeLines (quest : Quest) : List String :=
  ["questname = " ++ inQuotes quest.name, "version = " ++ quest.version.text] ++
    Gate.all.filterMap (fun gate =>
      (quest.gates.get gate).map fun value => gate.keyword ++ " = " ++ value.text) ++
    (Flag.all.filter quest.flags.get).map Flag.keyword ++
    quest.extra.entries.map printExtra

def Quest.attributeFault? (quest : Quest) : Option Integer.Oversize :=
  quest.version.textFault?.or
    ((Gate.all.findSome? fun gate => (quest.gates.get gate).bind Number.textFault?).or
      (quest.extra.entries.findSome? extraFault?))

/-- The parts of a script: attributes, main block, states, random blocks. -/
def Quest.sections (schema : Schema) (pad : String) (quest : Quest) : List String :=
  [joinLines quest.attributeLines] ++
    quest.main.toList.map (State.printMain schema pad) ++
    quest.states.map (State.print schema pad) ++
    quest.random.map (RandomBlock.print pad)

/-- The script of a quest, ending with a line feed. A blank line stands between its parts. -/
def Quest.print (schema : Schema) (pad : String) (quest : Quest) : String :=
  "\n\n".intercalate (quest.sections schema pad) ++ "\n"

def Quest.fault? (schema : Schema) (quest : Quest) : Option Integer.Oversize :=
  quest.attributeFault?.or
    ((quest.callFault? schema).or (quest.random.findSome? RandomBlock.fault?))

def Quest.write (schema : Schema) (pad : String) (quest : Quest) :
    Except Integer.Oversize String :=
  Integer.guarded (quest.fault? schema) (quest.print schema pad)

end QuestScript

import QuestScript.Document.Codec
import QuestScript.Quest.Draft
import QuestScript.Quest.Refresh
/-!
Giving out quests. What is given out of a call is its cached text, and that is made anew on the way:
for a script just before the line of the call is written, for a document all over the quest before
anything is taken. So the quest after it differs from the one before at most in that text, also where
an integer that is not converted stops it half-way. What comes back when a script is read again is a
round trip.
-/

namespace QuestScript

/-- Why there is no indent: its number is too far from zero, or there is no number. -/
inductive IndentError where
  | tooFar
  | noNumber
deriving DecidableEq, Repr

def IndentError.message : IndentError → String
  | .tooFar => Integer.notIndexSized
  | .noNumber => "can't multiply sequence by non-int of type 'list'"

/-- The blanks of an indent. An indent below zero has none. -/
def padding (indent : Int) : Except IndentError String :=
  if Integer.isIndexSized indent then .ok (String.ofList (List.replicate indent.toNat ' '))
  else .error .tooFar

/-! ### Writing while going along a quest -/

namespace Export

/-- What an integer that is not converted stops. -/
def orStop {σ α : Type} (result : Except Integer.Oversize α) : EStateM Integer.Oversize σ α :=
  MonadExcept.ofExcept result

/-- The text of an action: it is made anew in the cache, and then taken from there. -/
def action (schema : Schema) : EStateM Integer.Oversize Action String := do
  Refresh.action schema
  return (← get).rawText

/-- The text of a rule: it is made anew in the cache, and then taken from there. -/
def rule (schema : Schema) : EStateM Integer.Oversize Rule String := do
  Refresh.rule schema
  return (← get).rawText

/-- The lines between the braces of a block: description, actions, rules. -/
def bodyLines (schema : Schema) (pad : String) : EStateM Integer.Oversize State (List String) := do
  let desc := (← get).descLines pad
  let actions ← Along.actions (action schema)
  let rules ← Along.rules (rule schema)
  return desc ++ actions.map (pad ++ ·) ++ rules.map (pad ++ ·)

def state (schema : Schema) (pad : String) : EStateM Integer.Oversize State String := do
  let header := "State " ++ inQuotes (← get).name
  return printBlock header (← bodyLines schema pad)

def mainBlock (schema : Schema) (pad : String) : EStateM Integer.Oversize State String := do
  return printBlock "Main" (← bodyLines schema pad)

def attributes : EStateM Integer.Oversize Quest (List String) := do
  let quest ← get
  orStop (Integer.guarded quest.attributeFault? quest.attributeLines)

def random (pad : String) : EStateM Integer.Oversize Quest (List String) := do
  orStop ((← get).random.mapM (RandomBlock.write pad))

/-- The script of a quest: attributes, main block, states, random blocks. -/
def script (schema : Schema) (pad : String) : EStateM Integer.Oversize Quest String := do
  let attributes ← attributes
  let main ← Along.main (mainBlock schema pad)
  let states ← Along.states (state schema pad)
  let random ← random pad
  return "\n\n".intercalate ([joinLines attributes] ++ main ++ states ++ random) ++ "\n"

def cachedAction (action : Action) : Json :=
  .object [("type", .string action.type),
    ("params", .array (action.params.map Document.encodeParam)), ("rawText", .string action.rawText)]

def cachedRule (rule : Rule) : Json :=
  .object [("type", .string rule.type), ("params", .array (rule.params.map Document.encodeParam)),
    ("gotoState", .string rule.goto), ("rawText", .string rule.rawText)]

def cachedState (state : State) : Json :=
  .object [("name", .string state.name), ("description", .string state.description),
    ("actions", .array (state.actions.map cachedAction)),
    ("rules", .array (state.rules.map cachedRule))]

/-- The document of a quest as it stands, with the texts that are cached. -/
def cachedQuest (quest : Quest) : Json :=
  .object (
    [("id", .number quest.id), ("questName", .string quest.name),
      ("version", .number quest.version)] ++
    Document.encodeGates quest.gates ++ Document.encodeFlags quest.flags ++
    Document.encodeExtra quest.extra ++
    quest.main.toList.map (fun main => ("main", cachedState main)) ++
    [("states", .array (quest.states.map cachedState)),
      ("randomBlocks", .array (quest.random.map Document.encodeRandom))])

/-- The document of a quest: the cached texts are made anew all over the quest, and then taken as
they are. -/
def document (schema : Schema) : EStateM Integer.Oversize Quest Json := do
  Refresh.quest schema
  return cachedQuest (← get)

end Export

/-- Why a quest is not given out: there is no such indent, or an integer is not converted. -/
inductive ExportError where
  | indent (error : IndentError)
  | oversize (fault : Integer.Oversize)
deriving DecidableEq, Repr

def ExportError.message : ExportError → String
  | .indent error => error.message
  | .oversize fault => fault.message

namespace Export

/-- What is given out with an indent. Where there is no such indent nothing is written at all. -/
def indented {σ α : Type} (indent : Int) (give : String → EStateM Integer.Oversize σ α) :
    EStateM ExportError σ α := do
  let pad ← MonadExcept.ofExcept ((padding indent).mapError ExportError.indent)
  EStateM.adaptExcept ExportError.oversize (give pad)

end Export

namespace Quest

/-- Writes a quest as a script with an indent. -/
def exportScript (schema : Schema) (indent : Int) : EStateM ExportError Quest String :=
  Export.indented indent (Export.script schema)

/-- Writes each state of a quest with an indent. The main block is not touched. -/
def exportStates (schema : Schema) (indent : Int) : EStateM ExportError Quest (List String) :=
  Export.indented indent fun pad => Along.states (Export.state schema pad)

/-- What a quest became when its script was read again: whether it is equal, and whether it has
the same script. -/
structure Reread where
  equal : Bool
  stable : Bool
deriving DecidableEq, Repr

/-- Writes the script of a quest, and reads it again. -/
def reread (schema : Schema) (pad : String) (quest : Quest) : Except Script.Malformed Reread := do
  let text ← (quest.write schema pad).mapError Script.Malformed.oversize
  let (again, _) ← Quest.parse schema quest.id text
  let text' ← (again.write schema pad).mapError Script.Malformed.oversize
  return ⟨again.same quest, text' = text⟩

end Quest

end QuestScript

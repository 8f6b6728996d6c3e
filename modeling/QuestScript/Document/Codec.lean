import QuestScript.Document.Validator
import QuestScript.Quest.Printer
/-!
Quests as documents, and documents as quests. Arguments are told apart by their types: a text is a
text and a number is an integer.
-/

namespace QuestScript.Document

/-! ### Writing -/

def gateMember : Gate → String
  | .minLevel => "minLevel"
  | .maxLevel => "maxLevel"
  | .needAdmin => "adminReq"
  | .needClass => "classReq"
  | .needQuest => "questReq"
  | .startNpc => "startNpc"

def flagMember : Flag → String
  | .hidden => "hidden"
  | .hiddenEnd => "hiddenEnd"
  | .disabled => "disabled"

def encodeParam : Param → Json
  | .text value _ => .string value
  | .int value => .int value

def encodeOptional : Option Param → Json
  | none => .null
  | some param => encodeParam param

/-- An action with its text made anew. -/
def encodeAction (schema : Schema) (action : Action) : Json :=
  .object [("type", .string action.type), ("params", .array (action.params.map encodeParam)),
    ("rawText", .string (action.print schema))]

/-- A rule with its text made anew. -/
def encodeRule (schema : Schema) (rule : Rule) : Json :=
  .object [("type", .string rule.type), ("params", .array (rule.params.map encodeParam)),
    ("gotoState", .string rule.goto), ("rawText", .string (rule.print schema))]

def encodeState (schema : Schema) (state : State) : Json :=
  .object [("name", .string state.name), ("description", .string state.description),
    ("actions", .array (state.actions.map (encodeAction schema))),
    ("rules", .array (state.rules.map (encodeRule schema)))]

def encodeTarget (target : RandomTarget) : Json :=
  .object [("state", .string target.state), ("weight", .number target.weight)]

def encodeRandom (block : RandomBlock) : Json :=
  .object [("name", .string block.name), ("targets", .array (block.targets.map encodeTarget))]

def encodeGates (gates : Gates) : List (String × Json) :=
  Gate.all.filterMap fun gate =>
    (gates.get gate).map fun value => (gateMember gate, Json.number value)

def encodeFlags (flags : Flags) : List (String × Json) :=
  (Flag.all.filter flags.get).map fun flag => (flagMember flag, Json.bool true)

def encodeExtra (extra : Table String (Option Param)) : List (String × Json) :=
  if extra.isEmpty then []
  else
    [("extraMetadata",
      .object (extra.entries.map fun (key, value) => (key, encodeOptional value)))]

/-- The document of a quest. -/
def encode (schema : Schema) (quest : Quest) : Json :=
  .object (
    [("id", .number quest.id), ("questName", .string quest.name),
      ("version", .number quest.version)] ++
    encodeGates quest.gates ++ encodeFlags quest.flags ++ encodeExtra quest.extra ++
    quest.main.toList.map (fun main => ("main", encodeState schema main)) ++
    [("states", .array (quest.states.map (encodeState schema))),
      ("randomBlocks", .array (quest.random.map encodeRandom))])

/-- Writes the document of a quest. The texts of all calls are made first. -/
def write (schema : Schema) (quest : Quest) : Except Integer.Oversize Json :=
  Integer.guarded (quest.callFault? schema) (encode schema quest)

/-! ### Reading

Each reader gives nothing for a value that it cannot read. -/

def readText? : Json → Option String
  | .string s => some s
  | _ => none

def readBool? : Json → Option Bool
  | .bool b => some b
  | _ => none

def readNumber? : Json → Option Number
  | .number n => some n
  | _ => none

def readItems? {α : Type} (read : Json → Option α) : Json → Option (List α)
  | .array items => items.mapM read
  | _ => none

/-- An argument. A floating-point number stands for the integer that it is. -/
def readParam? : Json → Option Param
  | .string s => some (.quoted s)
  | .number n => n.toInt?.map Param.int
  | _ => none

def readNullable? {α : Type} (read : Json → Option α) : Json → Option (Option α)
  | .null => some none
  | value => (read value).map some

def readMember? {α : Type} (read : Json → Option α) (document : Json) (name : String) : Option α :=
  (document.member? name).bind read

def readMemberD {α : Type} (read : Json → Option α) (default : α) (document : Json) (name : String) :
    Option α :=
  match document.member? name with
  | some value => read value
  | none => some default

/-- An action. Its text is not read. -/
def readAction? (document : Json) : Option Action := do
  let type ← readMember? readText? document "type"
  let params ← readMember? (readItems? readParam?) document "params"
  return ⟨type, params, ""⟩

/-- A rule. Its text is not read. -/
def readRule? (document : Json) : Option Rule := do
  let type ← readMember? readText? document "type"
  let params ← readMember? (readItems? readParam?) document "params"
  let goto ← readMember? readText? document "gotoState"
  return ⟨type, params, goto, ""⟩

def readState? (document : Json) : Option State := do
  let name ← readMember? readText? document "name"
  let description ← readMemberD readText? "" document "description"
  let actions ← readMemberD (readItems? readAction?) [] document "actions"
  let rules ← readMemberD (readItems? readRule?) [] document "rules"
  return ⟨name, description, actions, rules⟩

def readTarget? (document : Json) : Option RandomTarget := do
  let state ← readMember? readText? document "state"
  let weight ← readMemberD readNumber? 1 document "weight"
  return ⟨state, weight⟩

def readRandom? (document : Json) : Option RandomBlock := do
  let name ← readMember? readText? document "name"
  let targets ← readMember? (readItems? readTarget?) document "targets"
  return ⟨name, targets⟩

def readGate? (document : Json) (gate : Gate) : Option (Option Number) :=
  readMemberD (readNullable? readNumber?) none document (gateMember gate)

def readGates? (document : Json) : Option Gates :=
  Gate.all.foldlM (fun gates gate => (readGate? document gate).map (gates.set gate)) Gates.none

def readFlags? (document : Json) : Option Flags :=
  Flag.all.foldlM (fun flags flag =>
    (readMemberD readBool? false document (flagMember flag)).map (flags.set flag)) Flags.none

def readExtra? : Json → Option (Table String (Option Param))
  | .object members =>
    (members.mapM fun (member : String × Json) =>
      (readNullable? readParam? member.2).map fun param => (member.1, param)).map Table.ofList
  | _ => none

/-- A quest. -/
def readQuest? (document : Json) : Option Quest := do
  let id ← readMemberD readNumber? 0 document "id"
  let name ← readMember? readText? document "questName"
  let version ← readMemberD readNumber? 1 document "version"
  let gates ← readGates? document
  let flags ← readFlags? document
  let extra ← readMemberD readExtra? Table.empty document "extraMetadata"
  let main ← readMemberD (readNullable? readState?) none document "main"
  let states ← readMember? (readItems? readState?) document "states"
  let random ← readMemberD (readItems? readRandom?) [] document "randomBlocks"
  return ⟨id, name, version, gates, flags, extra, main, states, random⟩

/-- Why a document gives no quest: it violates the format, or it cannot be read though it does
not, or an integer is not converted. -/
inductive Refusal where
  | invalid (violation : Violation)
  | unreadable
  | oversize (fault : Integer.Oversize)
deriving DecidableEq, Repr

/-- The quest of a document that was accepted, with the texts of its calls made anew. The given number
takes the place of the document's. -/
def readAccepted (schema : Schema) (id? : Option Number) (document : Json) : Except Refusal Quest :=
  match readQuest? document with
  | none => .error .unreadable
  | some quest =>
    let quest : Quest := { quest with id := id?.getD quest.id }
    (Integer.guarded (quest.callFault? schema) (quest.refresh schema)).mapError Refusal.oversize

/-- The quest of a document under a schema, if a validator accepts it. -/
def decodeWith (validator : Validator) (schema : Schema) (id? : Option Number) (document : Json) :
    Except Refusal Quest :=
  match validator.validate document with
  | .error fault => .error (.oversize fault)
  | .ok (some violation) => .error (.invalid violation)
  | .ok none => readAccepted schema id? document

/-- The quest of a document under a schema, validated by the format. -/
def decode (schema : Schema) (id? : Option Number) (document : Json) : Except Refusal Quest :=
  decodeWith .ofFormat schema id? document

end QuestScript.Document

import QuestScript.Schema.Signature
import QuestScript.Table
/-!
Schemas: the actions and the rules that scripts may call, with their signatures.
-/

namespace QuestScript

/-- An action or a rule with its documentation. -/
structure Schema.Entry where
  name : String
  signature : String
  description : String
  slots : List Schema.Slot
deriving DecidableEq, Repr

/-- The entry whose slots are those of its signature. -/
def Schema.Entry.ofSignature (name signature description : String) : Schema.Entry :=
  ⟨name, signature, description, Schema.Signature.slots signature⟩

def Schema.Entry.hasSemicolon (entry : Schema.Entry) : Bool :=
  Schema.Signature.hasSemicolon entry.signature

/-- The vocabulary of scripts, each category in the order of its document. -/
structure Schema where
  actions : Table String Schema.Entry
  rules : Table String Schema.Entry
deriving DecidableEq, Repr

namespace Schema

def empty : Schema := ⟨Table.empty, Table.empty⟩

instance : Inhabited Schema := ⟨empty⟩

/-- The entry of a word. An action comes before a rule of its name. -/
def documentation? (schema : Schema) (word : String) : Option Entry :=
  (schema.actions.get? word).or (schema.rules.get? word)

/-- The slots of an action, none for an unknown one. -/
def actionSlots (schema : Schema) (name : String) : List Slot :=
  ((schema.actions.get? name).map Entry.slots).getD []

/-- The slots of a rule, none for an unknown one. -/
def ruleSlots (schema : Schema) (name : String) : List Slot :=
  ((schema.rules.get? name).map Entry.slots).getD []

/-- Whether an action is written with a semicolon, as an unknown one is. -/
def actionHasSemicolon (schema : Schema) (name : String) : Bool :=
  ((schema.actions.get? name).map Entry.hasSemicolon).getD true

/-- Whether both categories have entries. -/
def isComplete (schema : Schema) : Bool := !schema.actions.isEmpty && !schema.rules.isEmpty

/-- The schema with each category that has no entry taken from a fallback. -/
def orElse (schema fallback : Schema) : Schema :=
  { actions := if schema.actions.isEmpty then fallback.actions else schema.actions
    rules := if schema.rules.isEmpty then fallback.rules else schema.rules }

end Schema

end QuestScript

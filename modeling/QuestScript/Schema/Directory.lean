import QuestScript.Files.TextFile
import QuestScript.Schema.Document
import QuestScript.Schema.Vocabulary
import QuestScript.Settings
/-!
Schemas in files: one document for the actions and one for the rules of a directory. A document
that cannot be read leaves its category empty.
-/

namespace QuestScript.Schema

def loadCategory (files : FileSystem) (path : FilePath) :
    Except FileSystem.Fault (Table String Entry) :=
  (TextFile.readDocument files path.toString).map fun
    | .ok text => (Document.read text).1
    | .error _ => Table.empty

/-- The schema of a source. The bundled one is the built-in vocabulary. -/
def load (files : FileSystem) : Settings.ConfigSource → Except FileSystem.Fault Schema
  | .bundled => .ok builtin
  | .directory path =>
    match loadCategory files (Settings.actionsPath path),
      loadCategory files (Settings.rulesPath path) with
    | .ok actions, .ok rules => .ok ⟨actions, rules⟩
    | .error fault, _ => .error fault
    | _, .error fault => .error fault

/-- The names of the documents of a schema, in the order in which they are read. -/
def documentNames : List String := ["actions.ini", "rules.ini"]

end QuestScript.Schema

import QuestScript.Files.QuestFile
import QuestScript.Files.TextFile
import QuestScript.Quest.Export
import QuestScript.Text.Case
/-!
Quests in files. The number of a quest comes from the name of its file and never from the text.
-/

namespace QuestScript.QuestStore

/-- Why quests cannot be loaded. -/
inductive LoadFault where
  | unreadable (fault : TextFile.Fault)
  | badName (error : QuestFile.NameError)
  | malformed (fault : Script.Malformed)
deriving DecidableEq, Repr

def LoadFault.message : LoadFault → String
  | .unreadable fault => fault.message
  | .badName error => error.message
  | .malformed fault => fault.message

/-- Loads the quest of a file. The text is read before the name, and the name before the script. -/
def load (schema : Schema) (files : FileSystem) (path : FilePath) :
    Except LoadFault (Quest × List Warning) :=
  match TextFile.read files path with
  | .error fault => .error (.unreadable fault)
  | .ok text =>
    match QuestFile.number path with
    | .error error => .error (.badName error)
    | .ok number => (Quest.parse schema number text).mapError LoadFault.malformed

/-- Whether a name is that of a quest file. The case of the suffix does not matter. -/
def isQuestFile (name : String) : Bool :=
  let path : FilePath := ⟨"", [name]⟩
  Text.lowered path.suffix = QuestFile.suffix && QuestFile.isNumbered path.stem

/-- The quest files of a directory with their numbers, in the order of the numbers. Files of one
number come in the order of their names. -/
def numbered (files : FileSystem) (directory : FilePath) :
    Except LoadFault (List (Int × FilePath)) :=
  match files.list directory with
  | .error fault => .error (.unreadable (.file fault))
  | .ok names =>
    match (names.filter isQuestFile).mapM fun name =>
      (QuestFile.number (directory.push name)).map fun number => (number, directory.push name) with
    | .error error => .error (.badName error)
    | .ok found => .ok (found.mergeSort fun left right => decide (left.1 ≤ right.1))

/-- The quests that are loaded, by number, and the warnings about them. -/
structure Loaded where
  quests : Table Int Quest
  warnings : List Warning
deriving DecidableEq, Repr

def Loaded.take (schema : Schema) (files : FileSystem) (loaded : Loaded) (entry : Int × FilePath) :
    Except LoadFault Loaded :=
  (load schema files entry.2).map fun (quest, warnings) =>
    ⟨loaded.quests.put entry.1 quest, loaded.warnings ++ warnings⟩

/-- Loads the quests of a directory. Files that are no quest files do not count; a quest file that
cannot be loaded is a fault of the whole. -/
def loadDirectory (schema : Schema) (files : FileSystem) (directory : FilePath) :
    Except LoadFault Loaded :=
  match numbered files directory with
  | .error fault => .error fault
  | .ok found => found.foldlM (Loaded.take schema files) ⟨Table.empty, []⟩

/-- Why a quest cannot be saved. -/
inductive SaveFault where
  | file (fault : FileSystem.Fault)
  | fractionalNumber
  | oversize (fault : Integer.Oversize)
deriving DecidableEq, Repr

def SaveFault.message : SaveFault → String
  | .file fault => fault.message
  | .fractionalNumber => "Unknown format code 'd' for object of type 'float'"
  | .oversize fault => fault.message

/-- Where a quest was saved, and the text that was written. -/
structure Receipt where
  path : FilePath
  text : String
deriving DecidableEq, Repr

/-- The name of the file of a quest of some number, which has to be an integer. -/
def fileName : Number → Except SaveFault String
  | .int id => (Integer.guarded (Integer.textFault? id) (QuestFile.name id)).mapError .oversize
  | .float _ => .error .fractionalNumber

/-- The path of the file that a quest is saved to: the path itself, or in a directory the name
after the number of the quest. -/
def target (files : FileSystem) (path : FilePath) (quest : Quest) : Except SaveFault FilePath :=
  match files.isDirectory path with
  | .error fault => .error (.file fault)
  | .ok false => .ok path
  | .ok true => (fileName quest.id).map path.push

/-- Writes the script of a quest to a file, in a directory that there is. That it was saved is noted
with its number, after it was written. -/
def saveTo (schema : Schema) (pad : String) (files : FileSystem) (path : FilePath) (quest : Quest) :
    FileSystem × Except SaveFault Receipt :=
  match quest.write schema pad with
  | .error fault => (files, .error (.oversize fault))
  | .ok text =>
    match TextFile.write files path text with
    | .error fault => (files, .error (.file fault))
    | .ok files =>
      (files, (Integer.guarded quest.id.textFault? ⟨path, text⟩).mapError SaveFault.oversize)

/-- Saves a quest as a script: the files after it, and where it was saved or why it was not. The
directories that were made for it stay in any case. -/
def save (schema : Schema) (pad : String) (files : FileSystem) (path : FilePath) (quest : Quest) :
    FileSystem × Except SaveFault Receipt :=
  match target files path quest with
  | .error fault => (files, .error fault)
  | .ok path =>
    let made := files.ensureDirectories path.parent
    match made.fault? with
    | some fault => (made.files, .error (.file fault))
    | none => saveTo schema pad made.files path quest

end QuestScript.QuestStore

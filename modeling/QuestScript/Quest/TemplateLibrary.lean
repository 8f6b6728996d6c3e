import QuestScript.Files.TextFile
import QuestScript.Quest.Template
import QuestScript.Settings
import QuestScript.Text.Case
/-!
Libraries of templates. Each template is a file, named after the template; one that cannot be used
is recorded and costs only itself. An integer with too many digits costs the whole library, though, and
so does a name that has no room.
-/

namespace QuestScript

/-- Why a file gives no template: it cannot be read, or its text is broken. That an integer of it is not
converted is no such failure. -/
inductive TemplateLibrary.Failure where
  | unreadable (document : TextFile.Unreadable)
  | broken (fault : Template.Fault)
deriving DecidableEq, Repr

def TemplateLibrary.Failure.message : TemplateLibrary.Failure → String
  | .unreadable document => document.message
  | .broken fault => fault.message

/-- What fails a whole library: a path, or an integer of a template that is not converted. -/
inductive TemplateLibrary.Fault where
  | file (fault : FileSystem.Fault)
  | oversize (fault : Integer.Oversize)
deriving DecidableEq, Repr

def TemplateLibrary.Fault.message : TemplateLibrary.Fault → String
  | .file fault => fault.message
  | .oversize fault => fault.message

/-- Templates by name, and the failures by the names that the templates would have. -/
structure TemplateLibrary where
  templates : Table String Template
  failures : Table String TemplateLibrary.Failure
deriving DecidableEq, Repr

namespace TemplateLibrary

def empty : TemplateLibrary := ⟨Table.empty, Table.empty⟩

instance : Inhabited TemplateLibrary := ⟨empty⟩

/-- The template of a document, or why there is none. -/
def readTemplate (text : Except TextFile.Unreadable String) :
    Except Integer.Oversize (Except Failure Template) :=
  match text with
  | .error document => .ok (.error (.unreadable document))
  | .ok text =>
    match Template.parse text with
    | .ok template => .ok (.ok template)
    | .error fault =>
      match fault.cause.oversize? with
      | some oversize => .error oversize
      | none => .ok (.error (.broken fault))

def add (library : TemplateLibrary) (name : String) :
    Except Failure Template → TemplateLibrary
  | .ok template => { library with templates := library.templates.put name template }
  | .error failure => { library with failures := library.failures.put name failure }

/-- The suffix of template files. Its case does not matter. -/
def suffix : String := ".eqf"

def isTemplateFile (name : String) : Bool := Text.lowered (FilePath.mk "" [name]).suffix = suffix

/-- The template files of a directory, in order. What is no directory has none. -/
def fileNames (files : FileSystem) (directory : FilePath) :
    Except FileSystem.Fault (List String) :=
  match files.isDirectory directory with
  | .error fault => .error fault
  | .ok false => .ok []
  | .ok true => (files.list directory).map fun names => names.filter isTemplateFile

def addFile (files : FileSystem) (directory : FilePath) (library : TemplateLibrary)
    (file : String) : Except Fault TemplateLibrary :=
  let path := directory.push file
  match TextFile.readDocument files path.toString with
  | .error fault => .error (.file fault)
  | .ok text =>
    match readTemplate text with
    | .error fault => .error (.oversize fault)
    | .ok result => .ok (library.add path.stem result)

def addFiles (files : FileSystem) (directory : FilePath) (library : TemplateLibrary) :
    List String → Except Fault TemplateLibrary
  | [] => .ok library
  | file :: rest =>
    match addFile files directory library file with
    | .error fault => .error fault
    | .ok library => addFiles files directory library rest

/-- The library of a directory. -/
def ofDirectory (files : FileSystem) (directory : FilePath) : Except Fault TemplateLibrary :=
  match fileNames files directory with
  | .error fault => .error (.file fault)
  | .ok names => addFiles files directory empty names

def bundledTexts : List (String × String) :=
  [("CollectItems",
    "desc \"Collect items\"\n" ++
    "action ShowHint(\"Collect the requested items.\");\n" ++
    "rule GotItems(100, 5) goto ReturnToNPC\n"),
   ("ItemReward",
    "// Standard reward and quest completion\n" ++
    "desc \"Reward\"\n" ++
    "action GiveExp(1000);\n" ++
    "action GiveItem(1, 500);\n" ++
    "action End();\n"),
   ("NpcDialog",
    "// Greeting with a yes/no choice\n" ++
    "desc \"Talk to NPC\"\n" ++
    "action AddNpcText(1, \"Hello there, traveller.\");\n" ++
    "action AddNpcInput(1, 1, \"Yes\");\n" ++
    "action AddNpcInput(1, 2, \"No\");\n" ++
    "rule InputNpc(1) goto Accepted\n" ++
    "rule InputNpc(2) goto Begin\n")]

def bundled : TemplateLibrary :=
  bundledTexts.foldl (fun library (name, text) =>
    match readTemplate (.ok text) with
    | .ok result => library.add name result
    | .error _ => library) empty

def load (files : FileSystem) : Settings.ConfigSource → Except Fault TemplateLibrary
  | .bundled => .ok bundled
  | .directory path => ofDirectory files (Settings.templatesPath path)

/-- The files that loading the library of a source reads, in order. -/
def sourceFiles (files : FileSystem) :
    Settings.ConfigSource → Except FileSystem.Fault (List String)
  | .bundled => .ok (bundledTexts.map fun (name, _) => name ++ suffix)
  | .directory path => fileNames files (Settings.templatesPath path)

end TemplateLibrary

end QuestScript

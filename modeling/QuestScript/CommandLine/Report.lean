import QuestScript.CommandLine.Invocation
import QuestScript.Document.Format
import QuestScript.Files.QuestFile
import QuestScript.Json.Reader
import QuestScript.Quest.Export
import QuestScript.Quest.TemplateLibrary
import QuestScript.Schema.Directory
import QuestScript.Skeleton
/-!
What commands report. A command looks at the files and the environment and says what is to be
printed, where, and which file is to be written; it changes nothing itself.
-/

namespace QuestScript.CommandLine

open QuestScript.Text

/-- What stops a command without a report. -/
inductive Crash where
  | undecodable (fault : Utf8.Fault)
  | badDigits (error : QuestFile.NameError)
  | unknownHome (error : Settings.HomeError)
  | badIndent (error : IndentError)
  | badPath (fault : FileSystem.Fault)
  | tooDeep (fault : Json.Fault)
  | oversize (fault : Integer.Oversize)
deriving DecidableEq, Repr

def Crash.message : Crash → String
  | .undecodable fault => fault.message
  | .badDigits error => error.message
  | .unknownHome error => error.message
  | .badIndent error => error.message
  | .badPath fault => fault.message
  | .tooDeep fault => fault.message
  | .oversize fault => fault.message

/-- What a command says: the text it prints, the text of its complaints, the exit code, and the
file it writes. -/
structure Report where
  output : String
  complaints : String
  exitCode : Nat
  written : Option (FilePath × String)
deriving DecidableEq, Repr

namespace Report

def printing (lines : List String) : Report := ⟨String.join (lines.map (· ++ "\n")), "", 0, none⟩

def complaining (exitCode : Nat) (lines : List String) : Report :=
  ⟨"", String.join (lines.map (· ++ "\n")), exitCode, none⟩

def giving (text : String) : Report := ⟨text, "", 0, none⟩

/-- Two reports after one another. The higher exit code counts, and the later file. -/
def append (first second : Report) : Report :=
  { output := first.output ++ second.output
    complaints := first.complaints ++ second.complaints
    exitCode := max first.exitCode second.exitCode
    written := second.written.or first.written }

def silent : Report := ⟨"", "", 0, none⟩

end Report

/-- The number of a quest for messages: that of the name of its file, or none. -/
def questNumber (path : FilePath) : Except Crash Int :=
  match QuestFile.number path with
  | .ok number => .ok number
  | .error (.noNumber _) => .ok 0
  | .error (.badDigits stem) => .error (.badDigits (.badDigits stem))
  | .error (.oversize fault) => .error (.oversize fault)

/-- A quest of a script with its warnings, or the complaint about it. An integer that is not converted
is nothing to complain about: it stops the command. -/
def readScript (schema : Schema) (id : Number) (text : String) :
    Except Crash (Except String (Quest × List Warning)) :=
  match Quest.parse schema id text with
  | .ok read => .ok (.ok read)
  | .error fault =>
    match fault.cause with
    | .oversize fault => .error (.oversize fault)
    | _ => .ok (.error fault.message)

/-- A quest of a file with its warnings, or the complaint about it. -/
def readQuest (schema : Schema) (files : FileSystem) (path : FilePath) :
    Except Crash (Except String (Quest × List Warning)) :=
  match TextFile.read files path with
  | .error (.file fault) =>
    if fault.cause = .noPath then .error (.badPath fault) else .ok (.error fault.message)
  | .error (.bytes fault) => .error (.undecodable fault)
  | .ok text =>
    match questNumber path with
    | .error crash => .error crash
    | .ok number => readScript schema number text

def about (path : FilePath) (text : String) : String := path.toString ++ ": " ++ text

def checked (path : FilePath) (quest : Quest) (warnings : List Warning) : Report :=
  let all := warnings ++ quest.emptyGotos
  Report.printing (all.map (fun warning => about path ("warning: " ++ warning.text)) ++
    [about path ("OK (" ++ toString quest.states.length ++ " states, " ++
      toString all.length ++ " warnings)")])

def checkFile (schema : Schema) (files : FileSystem) (path : FilePath) : Except Crash Report :=
  (readQuest schema files path).map fun
    | .error complaint => Report.complaining 1 [about path complaint]
    | .ok (quest, warnings) => checked path quest warnings

def checkFiles (schema : Schema) (files : FileSystem) : List FilePath → Except Crash Report
  | [] => .ok Report.silent
  | path :: paths =>
    match checkFile schema files path with
    | .error crash => .error crash
    | .ok first => (checkFiles schema files paths).map first.append

def IndentRequest.padding (env : Environment) : IndentRequest → Except IndentError String
  | .usual => QuestScript.padding (Settings.indent env)
  | .number indent => QuestScript.padding indent
  | .takenBack => .error .noNumber

/-- What a text that is written stops, or a report of it. -/
def written (text : Except Integer.Oversize String) (report : String → Report) :
    Except Crash Report :=
  (text.mapError Crash.oversize).map report

def formatFile (schema : Schema) (files : FileSystem) (path : FilePath) (inPlace : Bool)
    (pad : Except IndentError String) : Except Crash Report :=
  match readQuest schema files path with
  | .error crash => .error crash
  | .ok (.error complaint) => .ok (Report.complaining 1 [about path complaint])
  | .ok (.ok (quest, _)) =>
    match pad with
    | .error error => .error (.badIndent error)
    | .ok pad =>
      written (quest.write schema pad) fun text =>
        if inPlace then
          { Report.printing ["Formatted " ++ path.toString] with written := some (path, text) }
        else Report.giving text

def byName {α : Type} (table : Table String α) : List (String × α) :=
  table.entries.mergeSort fun left right => FileSystem.textLe left.1 right.1

def describeTemplate (name : String) (template : Template) : String :=
  let counts := toString template.actions.length ++ " actions, " ++
    toString template.rules.length ++ " rules"
  if template.description.isEmpty then name ++ ": " ++ counts
  else name ++ ": " ++ quoted template.description ++ ": " ++ counts

def listTemplates (library : TemplateLibrary) : Report :=
  (Report.printing ((byName library.templates).map fun (name, template) =>
    describeTemplate name template)).append
  (Report.complaining (if library.failures.isEmpty then 0 else 1)
    ((byName library.failures).map fun (name, failure) =>
      name ++ ": FAILED: " ++ failure.message))

def listSkeletons : Report :=
  Report.printing (Skeleton.all.map fun skeleton =>
    skeleton.name ++ ": " ++ skeleton.description)

def giveSkeleton (schema : Schema) (name : String) (id indent : Int) :
    Except Crash Report :=
  match Skeleton.find? name with
  | none => .ok (Report.complaining 2 [Skeleton.unknownMessage name])
  | some skeleton =>
    match padding indent with
    | .error error => .error (.badIndent error)
    | .ok pad => written ((skeleton.instantiate schema (.int id)).write schema pad) Report.giving

def readJson (files : FileSystem) (path : FilePath) : Except Crash (Except String Json) :=
  match TextFile.read files path with
  | .error fault => .ok (.error fault.message)
  | .ok text =>
    match Json.read text.toList with
    | .ok document => .ok (.ok document)
    | .error fault => if fault.cause.isDepth then .error (.tooDeep fault) else .ok (.error fault.message)

def validated (path : FilePath) (document : Json) : Report :=
  match Document.reports document with
  | [] => Report.printing ["OK: " ++ path.toString ++ " is a valid quest document"]
  | reports =>
    Report.complaining 1 (reports.map (about path) ++
      ["FAILED: " ++ toString reports.length ++ " schema violation(s)."])

def validateFile (files : FileSystem) (path : FilePath) : Except Crash Report :=
  (readJson files path).map fun
    | .error complaint => Report.complaining 2 [about path complaint]
    | .ok document => validated path document

/-- The schema that commands use: that of a source, in which no category is empty. -/
def commandSchema (files : FileSystem) (source : Settings.ConfigSource) : Except Crash Schema :=
  match Schema.load files source with
  | .ok schema => .ok schema.withDefaults
  | .error fault => .error (.badPath fault)

def Command.run (env : Environment) (files : FileSystem) (source : Settings.ConfigSource) :
    Command → Except Crash Report
  | .check paths =>
    match commandSchema files source with
    | .error crash => .error crash
    | .ok schema => checkFiles schema files paths
  | .format path inPlace indent =>
    match commandSchema files source with
    | .error crash => .error crash
    | .ok schema => formatFile schema files path inPlace (indent.padding env)
  | .templates =>
    match TemplateLibrary.load files source with
    | .error (.file fault) => .error (.badPath fault)
    | .error (.oversize fault) => .error (.oversize fault)
    | .ok library => .ok (listTemplates library)
  | .skeleton none _ => .ok listSkeletons
  | .skeleton (some name) id =>
    match commandSchema files source with
    | .error crash => .error crash
    | .ok schema => giveSkeleton schema name id (Settings.indent env)
  | .validate path => validateFile files path

/-- The files that a command looks at with a source of the configuration, those of the templates
aside. -/
def Command.reads (source : Settings.ConfigSource) (command : Command) : List FilePath :=
  let schema := match source with
    | .bundled => []
    | .directory path => [Settings.actionsPath path, Settings.rulesPath path]
  match command with
  | .check paths => schema ++ paths
  | .format path _ _ => schema ++ [path]
  | .templates => []
  | .skeleton _ _ => schema
  | .validate path => [path]

/-- The source of the configuration: the directory of the arguments, or else of the environment. -/
def Invocation.source (env : Environment) (invocation : Invocation) :
    Except Crash Settings.ConfigSource :=
  match invocation.configDirectory with
  | some path => .ok (.directory path)
  | none => (Settings.configSource env).mapError Crash.unknownHome

def Invocation.run (env : Environment) (files : FileSystem) (invocation : Invocation) :
    Except Crash Report :=
  match invocation.source env with
  | .error crash => .error crash
  | .ok source => invocation.command.run env files source

end QuestScript.CommandLine

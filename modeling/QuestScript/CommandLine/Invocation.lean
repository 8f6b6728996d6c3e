import QuestScript.CommandLine.Arguments
import QuestScript.Files.FilePath
/-!
Invocations of the program: the command that the arguments ask for.
-/

namespace QuestScript.CommandLine

/-- The indent that is asked for: that of the settings, a number, or one that was taken back, with
which nothing can be written. -/
inductive IndentRequest where
  | usual
  | number (indent : Int)
  | takenBack
deriving DecidableEq, Repr

/-- The commands. -/
inductive Command where
  | check (paths : List FilePath)
  | format (path : FilePath) (inPlace : Bool) (indent : IndentRequest)
  | templates
  | skeleton (name : Option String) (id : Int)
  | validate (path : FilePath)
deriving DecidableEq, Repr

/-- A command, and the directory of the configuration if the arguments give one. -/
structure Invocation where
  configDirectory : Option FilePath
  command : Command
deriving DecidableEq, Repr

def mainGrammar : Grammar := ⟨[⟨"--config-dir", .value .text⟩], .command⟩

namespace Command

def grammars : List (String × Grammar) :=
  [("check", ⟨[], .some⟩),
   ("format", ⟨[⟨"--write", .switch⟩, ⟨"--indent", .value .integer⟩], .one⟩),
   ("templates", ⟨[], .none⟩),
   ("skeleton", ⟨[⟨"--id", .value .integer⟩], .optional⟩),
   ("validate", ⟨[], .one⟩)]

/-- The number of a quest that is given none. -/
def defaultId : Int := 1

def integer? (parsed : Parsed) (option : String) : Option Int :=
  (parsed.value? option).bind Integer.whole?

def indentRequest (parsed : Parsed) : IndentRequest :=
  match parsed.last? "--indent", integer? parsed "--indent" with
  | none, _ => .usual
  | some _, some indent => .number indent
  | some _, none => .takenBack

def ofParsed? (name : String) (parsed : Parsed) : Option Command :=
  match name, parsed.operands with
  | "check", paths => some (.check (paths.map FilePath.ofString))
  | "format", path :: _ =>
    some (.format (.ofString path) (parsed.last? "--write").isSome (indentRequest parsed))
  | "templates", _ => some .templates
  | "skeleton", operands =>
    some (.skeleton operands.head? ((integer? parsed "--id").getD defaultId))
  | "validate", path :: _ => some (.validate (.ofString path))
  | _, _ => none

/-- Reads a command and its arguments. Arguments without a place are wrong. -/
def ofArguments (name : String) (arguments : List String) : Except Usage Command :=
  match grammars.lookup name with
  | none => .error .wrong
  | some grammar =>
    match grammar.parse arguments with
    | .error usage => .error usage
    | .ok parsed =>
      match ofParsed? name parsed with
      | some command => if parsed.extras.isEmpty then .ok command else .error .wrong
      | none => .error .wrong

end Command

def Invocation.ofArguments (arguments : List String) : Except Usage Invocation :=
  match mainGrammar.parse arguments with
  | .error usage => .error usage
  | .ok parsed =>
    match parsed.command with
    | none => .error .wrong
    | some (name, arguments) =>
      match Command.ofArguments name arguments with
      | .error usage => .error usage
      | .ok command =>
        if parsed.extras.isEmpty then
          .ok ⟨(parsed.value? "--config-dir").map FilePath.ofString, command⟩
        else .error .wrong

end QuestScript.CommandLine

import QuestScript.Files.FilePath
import QuestScript.Number.Integer
import QuestScript.Table
import QuestScript.Text.Case
/-!
Settings, which environment variables may change: the indent of scripts, the level of the log, and
the directory of the schema documents and templates.
-/

namespace QuestScript

/-- The environment variables that are set. -/
abbrev Environment := Table String String

namespace Settings

def defaultIndent : Int := 2

/-- The number of blanks before each line inside a block. The variable has to hold an integer that
is not below zero. -/
def indent (env : Environment) : Int :=
  match (env.get? "EQF_INDENT").bind Integer.whole? with
  | some n => if n < 0 then defaultIndent else n
  | none => defaultIndent

def logLevels : List (String × Nat) :=
  [("CRITICAL", 50), ("FATAL", 50), ("ERROR", 40), ("WARN", 30), ("WARNING", 30), ("INFO", 20),
   ("DEBUG", 10), ("NOTSET", 0)]

/-- The level of the log. A name that is none means warnings. -/
def logLevel (env : Environment) : Nat :=
  let name := Text.raised (Text.trimmed ((env.get? "EQF_LOG_LEVEL").getD "WARNING"))
  (logLevels.lookup name).getD 30

/-- Where the schema documents and the templates come from: those that are bundled, or a
directory. -/
inductive ConfigSource where
  | bundled
  | directory (path : FilePath)
deriving DecidableEq, Repr

/-- Why there is no directory: its path begins with a home that is not known. -/
inductive HomeError where
  | unknownHome
deriving DecidableEq, Repr

def HomeError.message : HomeError → String
  | .unknownHome => "Could not determine home directory."

def dropSlashes (text : String) : String :=
  String.ofList (text.toList.reverse.dropWhile (· = '/')).reverse

/-- The path with the home directory in place of a tilde at its start. Homes of other users are
not known. -/
def expandHome (env : Environment) (path : FilePath) : Except HomeError FilePath :=
  match path.parts with
  | first :: rest =>
    if path.root.isEmpty && first.toList.head? = some '~' then
      match env.get? "HOME" with
      | some home =>
        if first = "~" && home.toList.head? ≠ some '~' then
          let home := dropSlashes home
          let base := FilePath.ofString (if home.isEmpty then "/" else home)
          .ok { base with parts := base.parts ++ rest }
        else .error .unknownHome
      | none => .error .unknownHome
    else .ok path
  | [] => .ok path

/-- The configured source. -/
def configSource (env : Environment) : Except HomeError ConfigSource :=
  match env.get? "EQF_CONFIG_DIR" with
  | none => .ok .bundled
  | some text =>
    let text := Text.trimmed text
    if text.isEmpty then .ok .bundled
    else (expandHome env (FilePath.ofString text)).map ConfigSource.directory

def actionsPath (directory : FilePath) : FilePath := directory.child "actions.ini"

def rulesPath (directory : FilePath) : FilePath := directory.child "rules.ini"

def templatesPath (directory : FilePath) : FilePath := directory.child "templates/states"

end Settings

end QuestScript

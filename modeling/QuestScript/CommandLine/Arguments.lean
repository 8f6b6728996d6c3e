import QuestScript.Number.Integer
import QuestScript.Text.Digit
import QuestScript.Text.Lines
/-!
Arguments of a command: options, which begin with a dash, and operands. Long options may be cut as
long as they stay unique, and take a value after an equals sign or as the next argument. Two dashes
after an equals sign take a value back. After an argument of two dashes all arguments are operands.

Arguments take effect from left to right, so of a request for help and a mistake the first one
counts; only a cut option that is not unique is noticed before all else.
-/

namespace QuestScript.CommandLine

open QuestScript.Text

/-- Why arguments end the run: they ask for help, or they are wrong. -/
inductive Usage where
  | help
  | wrong
deriving DecidableEq, Repr

/-- What the value of an option has to be. -/
inductive ValueKind where
  | text
  | integer
deriving DecidableEq, Repr

def ValueKind.accepts : ValueKind → String → Bool
  | .text, _ => true
  | .integer, value => (Integer.whole? value).isSome

/-- What an option is for. -/
inductive OptionKind where
  | help
  | switch
  | value (kind : ValueKind)
deriving DecidableEq, Repr

/-- An option, with the dashes of its name. -/
structure OptionSpec where
  name : String
  kind : OptionKind
deriving DecidableEq, Repr

/-- The operands that a command takes. -/
inductive Operands where
  | none
  | one
  | optional
  | some
  | command
deriving DecidableEq, Repr

/-- What a command takes beside the request for help. -/
structure Grammar where
  options : List OptionSpec
  operands : Operands
deriving DecidableEq, Repr

def Grammar.allOptions (grammar : Grammar) : List OptionSpec :=
  [⟨"-h", .help⟩, ⟨"--help", .help⟩] ++ grammar.options

/-- What an argument is. -/
inductive Item where
  | operand
  | separator
  | option (spec : OptionSpec) (value : Option String)
  | unknown
deriving DecidableEq, Repr

/-- An argument, and what it is. -/
structure Argument where
  text : String
  item : Item
deriving DecidableEq, Repr

/-- Splits an argument at its first equals sign. -/
def splitEquals (text : List Char) : List Char × Option String :=
  match text.dropWhile (· ≠ '=') with
  | [] => (text, none)
  | _ :: value => (text.takeWhile (· ≠ '='), some (String.ofList value))

/-- Whether a text is a number below zero: a dash and digits, with at most one point before the
last of them. A line feed may follow. -/
def isNegativeNumber (text : List Char) : Bool :=
  match text with
  | '-' :: rest =>
    let body := if rest.getLast? = some '\n' then rest.dropLast else rest
    match splitAtChar '.' body with
    | [whole] => !whole.isEmpty && whole.all isDecimal
    | [whole, fraction] => whole.all isDecimal && !fraction.isEmpty && fraction.all isDecimal
    | _ => false
  | _ => false

/-- The options that an argument can stand for, with the value it gives them. After two dashes
these are the options that it begins; after one, the option of its first letter, and what follows
the letter is the value. -/
def candidates (options : List OptionSpec) (text : List Char) :
    List (OptionSpec × Option String) :=
  match text with
  | '-' :: '-' :: _ =>
    let (start, value) := splitEquals text
    (options.filter fun spec => start.isPrefixOf spec.name.toList).map fun spec => (spec, value)
  | _ =>
    (options.filter fun spec => spec.name.toList = text.take 2).map fun spec =>
      (spec, some (String.ofList (text.drop 2)))

/-- The option that an argument names in full, with or without a value. -/
def exactOption? (options : List OptionSpec) (text : List Char) :
    Option (OptionSpec × Option String) :=
  let named (name : List Char) : Option OptionSpec :=
    options.find? fun spec => spec.name.toList = name
  match named text with
  | some spec => some (spec, none)
  | none =>
    match splitEquals text with
    | (_, none) => none
    | (name, some value) => (named name).map fun spec => (spec, some value)

/-- What an argument is that begins with a dash and more. It is an operand if it is a number or
holds a blank, unless it stands for an option. -/
def classifyDashed (options : List OptionSpec) (text : List Char) : Except Usage Item :=
  match exactOption? options text with
  | some (spec, value) => .ok (.option spec value)
  | none =>
    match candidates options text with
    | [(spec, value)] => .ok (.option spec value)
    | [] => .ok (if isNegativeNumber text || text.contains ' ' then .operand else .unknown)
    | _ => .error .wrong

def classify (options : List OptionSpec) (text : String) : Except Usage Argument :=
  match text.toList with
  | '-' :: c :: rest => (classifyDashed options ('-' :: c :: rest)).map fun item => ⟨text, item⟩
  | _ => .ok ⟨text, .operand⟩

def classifyAll (options : List OptionSpec) : List String → Except Usage (List Argument)
  | [] => .ok []
  | text :: rest =>
    if text = "--" then
      .ok (⟨text, .separator⟩ :: rest.map fun operand => ⟨operand, .operand⟩)
    else do
      let first ← classify options text
      let others ← classifyAll options rest
      return first :: others

/-- How far the operands are: not begun, just taken, or done. -/
inductive Phase where
  | awaiting
  | adjacent
  | closed
deriving DecidableEq, Repr

/-- What arguments say. An option that stands without a value is a switch, or its value was taken
back. -/
structure Parsed where
  options : List (String × Option String)
  operands : List String
  command : Option (String × List String)
  extras : List String
  phase : Phase
deriving DecidableEq, Repr

namespace Parsed

/-- What no arguments say. -/
def empty : Parsed := ⟨[], [], none, [], .awaiting⟩

def last? (parsed : Parsed) (name : String) : Option (Option String) :=
  parsed.options.reverse.lookup name

/-- The value of an option; the last one counts. -/
def value? (parsed : Parsed) (name : String) : Option String := (parsed.last? name).join

/-- Takes an option. It ends the operands that were just taken. -/
def takeOption (parsed : Parsed) (name : String) (value : Option String) : Parsed :=
  { parsed with
    options := parsed.options ++ [(name, value)]
    phase := if parsed.phase = .adjacent then .closed else parsed.phase }

def takeExtra (parsed : Parsed) (text : String) : Parsed :=
  { parsed with extras := parsed.extras ++ [text] }

def takeUnknown (parsed : Parsed) (text : String) : Parsed :=
  { parsed.takeExtra text with
    phase := if parsed.phase = .adjacent then .closed else parsed.phase }

def takeOperand (operands : Operands) (parsed : Parsed) (text : String) : Parsed :=
  let taken := { parsed with operands := parsed.operands ++ [text], phase := .adjacent }
  match parsed.phase, operands with
  | .awaiting, .none => parsed.takeExtra text
  | .awaiting, _ => taken
  | .adjacent, .some => taken
  | _, _ => parsed.takeExtra text

/-- Takes the separator, which belongs to operands that are awaited or were just taken. -/
def takeSeparator (operands : Operands) (parsed : Parsed) : Parsed :=
  if parsed.phase = .closed || operands = .none then parsed.takeExtra "--" else parsed

end Parsed

/-- Whether a value written to an option of one letter only repeats the letter. Letters after such
an option are options of their own, and there is one such option. -/
def OptionSpec.isRepeatedBy (spec : OptionSpec) (value : String) : Bool :=
  match spec.name.toList with
  | ['-', letter] => !value.isEmpty && value.toList.all (· = letter)
  | _ => false

/-- Takes arguments in turn. A command takes all that follow it. -/
def takeAll (operands : Operands) (parsed : Parsed) : List Argument → Except Usage Parsed
  | [] => .ok parsed
  | ⟨_, .option spec none⟩ :: rest =>
    match spec.kind with
    | .help => .error .help
    | .switch => takeAll operands (parsed.takeOption spec.name none) rest
    | .value kind =>
      match rest with
      | ⟨text, .operand⟩ :: rest =>
        if kind.accepts text then takeAll operands (parsed.takeOption spec.name (some text)) rest
        else .error .wrong
      | _ => .error .wrong
  | ⟨_, .option spec (some value)⟩ :: rest =>
    match spec.kind with
    | .help => .error (if spec.isRepeatedBy value then .help else .wrong)
    | .switch => .error .wrong
    | .value kind =>
      if value = "--" then takeAll operands (parsed.takeOption spec.name none) rest
      else if kind.accepts value then
        takeAll operands (parsed.takeOption spec.name (some value)) rest
      else .error .wrong
  | ⟨text, .unknown⟩ :: rest => takeAll operands (parsed.takeUnknown text) rest
  | ⟨_, .separator⟩ :: rest =>
    if operands = .command then .error .wrong
    else takeAll operands (parsed.takeSeparator operands) rest
  | ⟨text, .operand⟩ :: rest =>
    if operands = .command then
      .ok { parsed with command := some (text, rest.map Argument.text) }
    else takeAll operands (parsed.takeOperand operands text) rest

def Parsed.lacksOperands (operands : Operands) (parsed : Parsed) : Bool :=
  match operands with
  | .one | .some => parsed.operands.isEmpty
  | .command => parsed.command.isNone
  | .none | .optional => false

def Grammar.parse (grammar : Grammar) (arguments : List String) : Except Usage Parsed := do
  let parsed ← takeAll grammar.operands Parsed.empty
    (← classifyAll grammar.allOptions arguments)
  if parsed.lacksOperands grammar.operands then .error .wrong else .ok parsed

end QuestScript.CommandLine

import QuestScript.Quest.Draft
import QuestScript.Text.Lines
/-!
State templates: the content of one state, one statement a line.

    desc    "Description"
    action  ActionName(params);
    rule    RuleName(params) goto StateName

Lines that begin with any other word are passed over. Arguments are typed by how they are written,
since a template is read without a schema.
-/

namespace QuestScript

open Script (Call Token)

/-- The content of a state. -/
structure Template where
  description : String
  actions : List Action
  rules : List Rule
deriving DecidableEq, Repr, Inhabited

namespace Template

def empty : Template := ⟨"", [], []⟩

/-- The statements of a template. -/
inductive Keyword where
  | desc
  | action
  | rule
deriving DecidableEq, Repr

def Keyword.word : Keyword → String
  | .desc => "desc"
  | .action => "action"
  | .rule => "rule"

/-- What is wrong with a line. -/
inductive Cause where
  | script (cause : Script.Cause)
  | noCall (keyword : Keyword)
  | extraToken (found : Token) (call : String)
  | gotoInAction (call : String)
  | noGotoClause (call : String)
  | oversize (fault : Integer.Oversize)
deriving DecidableEq, Repr

def Cause.message : Cause → String
  | .script cause => cause.message
  | .noCall keyword => "expected a call after '" ++ keyword.word ++ "'"
  | .extraToken found call => "unexpected " ++ found.describe ++ " after '" ++ call ++ "'"
  | .gotoInAction call => "action '" ++ call ++ "' cannot have a goto clause"
  | .noGotoClause call => "rule '" ++ call ++ "' has no goto clause"
  | .oversize fault => fault.message

/-- The fault of an integer that is not converted, which is none of the template itself. -/
def Cause.oversize? : Cause → Option Integer.Oversize
  | .oversize fault => some fault
  | _ => none

/-- What is wrong with a template, and in which line. -/
structure Fault where
  cause : Cause
  line : Nat
deriving DecidableEq, Repr

/-- The wording of a fault. An integer that is not converted has no place. -/
def Fault.message (fault : Fault) : String :=
  if fault.cause.oversize?.isSome then fault.cause.message
  else "line " ++ toString fault.line ++ ": " ++ fault.cause.message

def isKeywordChar (c : Char) : Bool := c.isAlpha || c = '_'

/-- The keyword that a line begins with, in letters of either case. The word ends at the first
character that is not an ASCII letter or an underscore. -/
def keyword? (line : List Char) : Option Keyword :=
  let word := (line.takeWhile isKeywordChar).map Char.toLower
  [Keyword.desc, Keyword.action, Keyword.rule].find? fun keyword => keyword.word.toList = word

/-- Whether a line is passed over whatever its first word is. -/
def isSkipped (line : List Char) : Bool := line.isEmpty || line.take 2 = ['/', '/']

/-- The action of a call. It is written as its line writes it, until it gets a schema. -/
def actionOf (call : Call) : Action :=
  let name := call.name.value
  let params := Param.ofArgs call.args []
  ⟨name, params, printCall name params [] ++ (if call.semicolon then ";" else "")⟩

def ruleOf (call : Call) (goto : String) : Rule := Draft.ruleOf Schema.empty call goto

/-- The call after the keyword of a line, which nothing may follow. -/
def readCall (keyword : Keyword) (tokens : List Token) : Except Cause Call :=
  match tokens with
  | name :: paren :: rest =>
    if name.kind = .ident && paren.kind = .lparen then
      match Script.readCall name rest with
      | .error fault => .error (.script fault.cause)
      | .ok (call, after) =>
        let next := Script.nextToken after
        if next.kind = .eof then .ok call else .error (.extraToken next call.name.value)
    else .error (.noCall keyword)
  | _ => .error (.noCall keyword)

/-- The call after the keyword of a line, with arguments that can be read. -/
def readStatement (keyword : Keyword) (tokens : List Token) : Except Cause Call := do
  let call ← readCall keyword tokens
  (Integer.guarded (Param.argsFault? call.args []) call).mapError Cause.oversize

/-- Takes a statement: a keyword, and the tokens after it. -/
def statement (template : Template) (keyword : Keyword) (tokens : List Token) :
    Except Cause Template :=
  match keyword with
  | .desc =>
    let next := Script.nextToken tokens
    .ok (if next.kind = .string then { template with description := next.value } else template)
  | .action =>
    match readStatement keyword tokens with
    | .error cause => .error cause
    | .ok call =>
      if call.goto.isSome then .error (.gotoInAction call.name.value)
      else .ok { template with actions := template.actions ++ [actionOf call] }
  | .rule =>
    match readStatement keyword tokens with
    | .error cause => .error cause
    | .ok call =>
      match call.goto with
      | none => .error (.noGotoClause call.name.value)
      | some goto => .ok { template with rules := template.rules ++ [ruleOf call goto] }

/-- The tokens of a line after the first one, which is the keyword or begins with it. -/
def tokensAfterKeyword (line : List Char) : Except Cause (List Token) :=
  match Script.tokensFrom Script.Position.start line with
  | .error fault => .error (.script fault.cause)
  | .ok tokens => .ok tokens.tail

def takeLine (template : Template) (line : List Char) : Except Cause Template :=
  if isSkipped line then .ok template
  else
    match keyword? line with
    | none => .ok template
    | some keyword =>
      match tokensAfterKeyword line with
      | .error cause => .error cause
      | .ok tokens => template.statement keyword tokens

/-- Takes lines in turn, the first of which has a number. -/
def takeLines (template : Template) (number : Nat) : List (List Char) → Except Fault Template
  | [] => .ok template
  | line :: rest =>
    match template.takeLine (Text.trim line) with
    | .error cause => .error ⟨cause, number⟩
    | .ok template => takeLines template (number + 1) rest

/-- The template of a text. -/
def parse (text : String) : Except Fault Template :=
  takeLines empty 1 (Text.splitLines text.toList)

end Template

end QuestScript

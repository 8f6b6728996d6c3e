import QuestScript.Number.Limit
import QuestScript.Script.Token
import QuestScript.Text.Quoted
/-!
What makes a text no quest script. A script with any of these faults is refused as a whole. An
integer with too many digits is one of them, though it is no fault of grammar and has no place.
-/

namespace QuestScript.Script

/-- What the grammar asked for where something else was found. -/
inductive Expected where
  | valueFor (key : String)
  | braceAfterState (name : String)
  | braceAfterRandom (name : String)
  | targetIn (block : String)
  | argumentTo (call : String)
deriving DecidableEq, Repr

def Expected.message : Expected → String
  | .valueFor key => "a value for '" ++ key ++ "'"
  | .braceAfterState name => "'\x7b' after State '" ++ name ++ "'"
  | .braceAfterRandom name => "'\x7b' after random '" ++ name ++ "'"
  | .targetIn block => "a target state in random '" ++ block ++ "'"
  | .argumentTo call => "an argument to '" ++ call ++ "'"

/-- A block that holds statements. -/
inductive Section where
  | main
  | state (name : String)
deriving DecidableEq, Repr

def Section.label : Section → String
  | .main => "Main block"
  | .state name => "State '" ++ name ++ "'"

/-- The name of the state that a block becomes. -/
def Section.name : Section → String
  | .main => "Main"
  | .state name => name

/-- What is wrong with a script. -/
inductive Cause where
  | unterminatedString
  | unexpectedChar (c : Char)
  | outsideBlock (found : Token)
  | expected (what : Expected) (found : Token)
  | insideBlock (found : Token) (block : Section)
  | noStatement (found : Token) (block : Section)
  | neverClosed (block : Section)
  | randomNeverClosed (name : String)
  | duplicateMain
  | duplicateState (name : String)
  | duplicateRandom (name : String)
  | missingParen (call : String)
  | noGotoTarget (call : String)
  | noGotoClause (call : String)
  | negativeWeight (target : String)
  | oversize (fault : Integer.Oversize)
deriving DecidableEq, Repr

def Cause.message : Cause → String
  | .unterminatedString => "unterminated string literal"
  | .unexpectedChar c => "unexpected character " ++ Text.quoted (String.singleton c)
  | .outsideBlock found => "unexpected " ++ found.describe ++ " outside of a block"
  | .expected what found => "expected " ++ what.message ++ ", found " ++ found.describe
  | .insideBlock found block => "unexpected " ++ found.describe ++ " in " ++ block.label
  | .noStatement found block =>
    "expected a statement in " ++ block.label ++ ", found " ++ found.describe
  | .neverClosed block => block.label ++ " is never closed"
  | .randomNeverClosed name => "random '" ++ name ++ "' is never closed"
  | .duplicateMain => "duplicate Main block"
  | .duplicateState name => "duplicate state '" ++ name ++ "'"
  | .duplicateRandom name => "duplicate random block '" ++ name ++ "'"
  | .missingParen call => "missing ')' in call to '" ++ call ++ "'"
  | .noGotoTarget call => "rule '" ++ call ++ "' has no goto target"
  | .noGotoClause call => "rule '" ++ call ++ "' has no goto clause"
  | .negativeWeight target => "negative weight for '" ++ target ++ "'"
  | .oversize fault => fault.message

/-- Whether a cause is that an integer is not converted, and so none of the script itself. -/
def Cause.isOversize : Cause → Bool
  | .oversize _ => true
  | _ => false

/-- A fault of a script and its place. A fault without a place is in line zero. -/
structure Malformed where
  cause : Cause
  line : Nat
  column : Nat
deriving DecidableEq, Repr

/-- The fault at the start of a token. -/
def Malformed.atToken (cause : Cause) (token : Token) : Malformed :=
  ⟨cause, token.line, token.column⟩

/-- The fault of an integer that is not converted. -/
def Malformed.oversize (fault : Integer.Oversize) : Malformed := ⟨.oversize fault, 0, 0⟩

/-- A fault without its place. -/
def Malformed.reason (fault : Malformed) : String := fault.cause.message

/-- A fault with its place, if it has one. -/
def Malformed.message (fault : Malformed) : String :=
  if fault.line = 0 then fault.reason
  else "line " ++ toString fault.line ++ ", column " ++ toString fault.column ++ ": " ++ fault.reason

end QuestScript.Script

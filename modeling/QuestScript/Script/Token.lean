/-!
Tokens of a quest script. A token keeps the place where its source text begins; the text of a
string is what stands between its quotes, since a string has no escapes.
-/

namespace QuestScript.Script

/-- The classes of tokens. Every script ends with one token of the class `eof`. -/
inductive Kind where
  | ident
  | number
  | string
  | lparen
  | rparen
  | lbrace
  | rbrace
  | comma
  | semi
  | equals
  | eof
deriving DecidableEq, Repr

/-- A token with the line and the column of its first character, both counted from one. -/
structure Token where
  kind : Kind
  value : String
  line : Nat
  column : Nat
deriving DecidableEq, Repr

namespace Token

def sourceText (token : Token) : String :=
  match token.kind with
  | .string => "\"" ++ token.value ++ "\""
  | _ => token.value

def endColumn (token : Token) : Nat := token.column + token.sourceText.length

def describe (token : Token) : String :=
  match token.kind with
  | .eof => "end of file"
  | .string => "string " ++ token.sourceText
  | _ => "'" ++ token.value ++ "'"

/-- Whether a token can be the name of a state, a random block or a goto target. -/
def isName (token : Token) : Bool := token.kind = .string || token.kind = .ident

def isArgument (token : Token) : Bool := token.isName || token.kind = .number

end Token

end QuestScript.Script

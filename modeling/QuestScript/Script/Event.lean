import QuestScript.Script.Malformed
import QuestScript.Script.Attribute
/-!
What a script says, piece by piece: attributes, the opening and closing of blocks, descriptions,
calls, and random blocks. Whether a call is known, and what its arguments are worth, is not said
here.
-/

namespace QuestScript.Script

/-- An argument or attribute value, by the way it was written. -/
inductive Arg where
  | quoted (text : String)
  | number (text : String)
  | word (text : String)
deriving DecidableEq, Repr

/-- The text of an argument, without the quotes of a quoted one. -/
def Arg.text : Arg → String
  | .quoted text => text
  | .number text => text
  | .word text => text

/-- The argument that one token is. -/
def Arg.ofToken (token : Token) : Arg :=
  match token.kind with
  | .string => .quoted token.value
  | .number => .number token.value
  | _ => .word token.value

/-- The source text of tokens that follow another one, with a space wherever they do not touch. -/
def joinAfter (previous : Token) : List Token → String
  | [] => ""
  | token :: rest =>
    (if token.line ≠ previous.line ∨ token.column > previous.endColumn then " " else "") ++
      token.sourceText ++ joinAfter token rest

/-- The argument that a token and those after it make up. Several tokens are one text, a number if
it begins with one. -/
def Arg.ofTokens (first : Token) (rest : List Token) : Arg :=
  if rest.isEmpty then .ofToken first
  else
    let text := first.sourceText ++ joinAfter first rest
    if first.kind = .number then .number text else .word text

/-- A call with its arguments, the state that it goes to if it has a goto clause, and whether a
semicolon ends it. -/
structure Call where
  name : Token
  args : List Arg
  goto : Option String
  semicolon : Bool
deriving DecidableEq, Repr

/-- A piece of a script. Openers are the keywords of the blocks they open. -/
inductive Event where
  | attr (key : Token) (value : Option Arg)
  | openMain (opener : Token)
  | openState (opener : Token) (name : String)
  | desc (keyword : Token) (text : String)
  | call (call : Call)
  | close
  | random (opener : Token) (name : String) (targets : List (String × Int))
deriving DecidableEq, Repr

end QuestScript.Script

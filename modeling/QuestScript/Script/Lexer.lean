import QuestScript.Script.Malformed
import QuestScript.Text.Blank
import QuestScript.Text.Digit
/-!
Splitting a script into tokens. Between tokens stand blanks, byte order marks and comments, which
run from two slashes to the end of the line. A token is the longest text of its class; a sign or a
point alone is a number, so that what it is worth is decided where it is used.
-/

namespace QuestScript.Script

open QuestScript.Text

/-- A place in a text, counted from line one and column one. -/
structure Position where
  line : Nat
  column : Nat
deriving DecidableEq, Repr

def Position.start : Position := ⟨1, 1⟩

/-- The place after a character. Only a line feed begins a new line. -/
def Position.next (position : Position) (c : Char) : Position :=
  if c = '\n' then ⟨position.line + 1, 1⟩ else ⟨position.line, position.column + 1⟩

/-- The place after some text. -/
def Position.advance (position : Position) (cs : List Char) : Position :=
  cs.foldl Position.next position

def isGapChar (c : Char) : Bool := isBlank c || c = '\ufeff'

def isNumberStart (c : Char) : Bool := isDigit c || c = '+' || c = '-' || c = '.'

def isNumberChar (c : Char) : Bool := isDigit c || c = '.'

def isIdentStart (c : Char) : Bool := isLetter c || c = '_'

def isIdentChar (c : Char) : Bool := isAlphanumeric c || c = '_'

def isStringChar (c : Char) : Bool := c ≠ '"' && c ≠ '\n'

def punctuation? (c : Char) : Option Kind :=
  match c with
  | '(' => some .lparen
  | ')' => some .rparen
  | '\x7b' => some .lbrace
  | '\x7d' => some .rbrace
  | ',' => some .comma
  | ';' => some .semi
  | '=' => some .equals
  | _ => none

/-- The token at the start of a text: its class, its value, and the text after it. -/
structure Lexeme where
  kind : Kind
  value : List Char
  rest : List Char
deriving DecidableEq, Repr

def Lexeme.source (lexeme : Lexeme) : List Char :=
  match lexeme.kind with
  | .string => '"' :: lexeme.value ++ ['"']
  | _ => lexeme.value

/-- The token that a text begins with, if it begins with one. -/
def lexeme? (c : Char) (rest : List Char) : Option Lexeme :=
  if c = '"' then
    match rest.dropWhile isStringChar with
    | '"' :: rest' => some ⟨.string, rest.takeWhile isStringChar, rest'⟩
    | _ => none
  else if isNumberStart c then
    some ⟨.number, c :: rest.takeWhile isNumberChar, rest.dropWhile isNumberChar⟩
  else if isIdentStart c then
    some ⟨.ident, c :: rest.takeWhile isIdentChar, rest.dropWhile isIdentChar⟩
  else (punctuation? c).map fun kind => ⟨kind, [c], rest⟩

theorem length_dropWhile_le (p : Char → Bool) (cs : List Char) :
    (cs.dropWhile p).length ≤ cs.length :=
  (List.dropWhile_sublist p).length_le

/-- The text after a lexeme is shorter than the text it was read from. -/
theorem lexeme?_rest_length {c : Char} {rest : List Char} {lexeme : Lexeme}
    (hLexeme : lexeme? c rest = some lexeme) : lexeme.rest.length ≤ rest.length := by
  unfold lexeme? at hLexeme
  split at hLexeme
  · split at hLexeme
    · next rest' hDrop =>
        cases hLexeme
        have hLength := length_dropWhile_le isStringChar rest
        rw [hDrop, List.length_cons] at hLength
        exact Nat.le_of_succ_le hLength
    · cases hLexeme
  · split at hLexeme
    · cases hLexeme
      exact length_dropWhile_le _ _
    · split at hLexeme
      · cases hLexeme
        exact length_dropWhile_le _ _
      · obtain ⟨kind, _, rfl⟩ := Option.map_eq_some_iff.1 hLexeme
        exact Nat.le_refl _

def startsComment (c : Char) (rest : List Char) : Bool := c = '/' && rest.head? = some '/'

def isCommentChar (c : Char) : Bool := c ≠ '\n'

/-- What is wrong with a text that begins with no token. -/
def lexicalCause (c : Char) : Cause := if c = '"' then .unterminatedString else .unexpectedChar c

/-- The tokens of a text that begins at a place, the last one being the end of the script. -/
def tokensFrom (position : Position) : List Char → Except Malformed (List Token)
  | [] => .ok [⟨.eof, "", position.line, position.column⟩]
  | c :: rest =>
    if isGapChar c then tokensFrom (position.next c) rest
    else if startsComment c rest then
      tokensFrom (position.advance (c :: rest.takeWhile isCommentChar))
        (rest.dropWhile isCommentChar)
    else match _hLexeme : lexeme? c rest with
      | none => .error ⟨lexicalCause c, position.line, position.column⟩
      | some lexeme =>
        match tokensFrom (position.advance lexeme.source) lexeme.rest with
        | .error fault => .error fault
        | .ok tokens =>
          .ok (⟨lexeme.kind, String.ofList lexeme.value, position.line, position.column⟩ :: tokens)
termination_by cs => cs.length
decreasing_by
  · exact Nat.lt_succ_self _
  · exact Nat.lt_succ_of_le (length_dropWhile_le _ _)
  · exact Nat.lt_succ_of_le (lexeme?_rest_length (by assumption))

/-- The tokens of a script. -/
def tokenize (text : String) : Except Malformed (List Token) :=
  tokensFrom Position.start text.toList

end QuestScript.Script

import QuestScript.Text.Lines
/-!
Signatures of calls: a pattern such as `GiveStat("stat", amount);` says how many arguments a call
takes, which of them are quoted, and whether the call ends with a semicolon.
-/

namespace QuestScript.Schema

open QuestScript.Text

/-- What an argument is: quoted text or an integer. -/
inductive SlotType where
  | string
  | integer
deriving DecidableEq, Repr

/-- A declared argument of a call. -/
structure Slot where
  name : String
  type : SlotType
deriving DecidableEq, Repr

namespace Signature

/-- The text between the first opening parenthesis and the next closing one; none without both. -/
def arguments? (signature : List Char) : Option (List Char) :=
  match signature.dropWhile (· ≠ '(') with
  | [] => none
  | _ :: rest => if rest.contains ')' then some (rest.takeWhile (· ≠ ')')) else none

/-- The pieces between the commas that do not stand between double quotes. -/
def splitArguments (inQuotes : Bool) : List Char → List (List Char)
  | [] => [[]]
  | c :: rest =>
    if c = ',' && !inQuotes then [] :: splitArguments inQuotes rest
    else consLine c (splitArguments (if c = '"' then !inQuotes else inQuotes) rest)

def between? (mark : Char) (cs : List Char) : Option (List Char) :=
  match cs with
  | first :: rest =>
    if first = mark && rest.getLast? = some mark then some rest.dropLast else none
  | [] => none

/-- The slot that an argument of a pattern declares. A pair of backticks around it does not count;
what is quoted then is a string named by the text between the quotes, and all else an integer. -/
def slot (argument : List Char) : Slot :=
  let argument := ((between? '`' argument).map trim).getD argument
  match between? '"' argument with
  | some name => ⟨String.ofList name, .string⟩
  | none => ⟨String.ofList argument, .integer⟩

/-- The slots of a signature in order. Empty arguments declare nothing. -/
def slots (signature : String) : List Slot :=
  match arguments? signature.toList with
  | none => []
  | some arguments =>
    (((splitArguments false arguments).map trim).filter fun argument => !argument.isEmpty).map slot

/-- Whether a call is written with a semicolon: whether the signature, without its backticks, ends
with one. -/
def hasSemicolon (signature : String) : Bool :=
  (trim (signature.toList.filter (· ≠ '`'))).getLast? = some ';'

end Signature

end QuestScript.Schema

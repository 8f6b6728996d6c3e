import QuestScript.Number.Basic
import QuestScript.Table
import QuestScript.Text.Quoted
/-!
Document values. Integers and floating-point numbers stay apart; the members of an object have
distinct keys and keep their order.
-/

namespace QuestScript

/-- A document value. -/
inductive Json where
  | null
  | bool (value : Bool)
  | number (value : Number)
  | string (value : String)
  | array (items : List Json)
  | object (members : List (String × Json))
deriving Inhabited

namespace Json

def int (n : Int) : Json := .number (.int n)

/-- The value of a member, if the value is an object that has it. -/
def member? : Json → String → Option Json
  | .object members, key => members.lookup key
  | _, _ => none

mutual
def display : Json → String
  | .null => "None"
  | .bool true => "True"
  | .bool false => "False"
  | .number n => n.text
  | .string s => Text.quoted s
  | .array items => "[" ++ ", ".intercalate (displayItems items) ++ "]"
  | .object members => "\x7b" ++ ", ".intercalate (displayMembers members) ++ "\x7d"

def displayItems : List Json → List String
  | [] => []
  | item :: rest => display item :: displayItems rest

/-- Members as messages show them: key, colon, value. -/
def displayMembers : List (String × Json) → List String
  | [] => []
  | (key, value) :: rest => (Text.quoted key ++ ": " ++ display value) :: displayMembers rest
end

end Json

end QuestScript

import QuestScript.Number.Limit
import QuestScript.Schema.Basic
import QuestScript.Script.Event
/-!
Arguments of calls as quests hold them: text or an integer. Where a schema declares a slot the slot
decides which; elsewhere the way the argument was written does. An argument that has to become an
integer is read only if it has few enough digits.
-/

namespace QuestScript

/-- An argument value. The mark `bare` remembers that a text was written without quotes, and
counts only for how it is written again. -/
inductive Param where
  | text (value : String) (bare : Bool)
  | int (value : Int)
deriving DecidableEq, Repr

namespace Param

instance : Inhabited Param := ⟨.int 0⟩

def quoted (value : String) : Param := .text value false

/-- The value as text, without quotes. -/
def valueText : Param → String
  | .text value _ => value
  | .int value => toString value

def valueFault? : Param → Option Integer.Oversize
  | .text _ _ => none
  | .int value => Integer.textFault? value

def content : Param → Param
  | .text value _ => .text value false
  | .int value => .int value

/-- The value of a slot that has not been filled in. -/
def blank : Schema.SlotType → Param
  | .string => .quoted ""
  | .integer => .int 0

/-- The value of an argument by the way it was written: quoted text, an integer literal, or any
other text, which stays without quotes. -/
def sniff : Script.Arg → Param
  | .quoted value => .quoted value
  | .number value =>
    if Integer.isLiteral value.toList then .int (Integer.leadingD value 0) else .text value true
  | .word value => .text value true

/-- The fault of reading an argument by the way it was written, if there is one: an integer literal
with too many digits. -/
def sniffFault? : Script.Arg → Option Integer.Oversize
  | .number value =>
    if Integer.isLiteral value.toList then Integer.leadingInFault? value else none
  | _ => none

/-- The value of an argument in a declared slot. A word in an integer slot is zero; any other text
there is the integer that it begins with. -/
def coerce : Script.Arg → Schema.SlotType → Param
  | arg, .string => .quoted arg.text
  | .word _, .integer => .int 0
  | arg, .integer => .int (Integer.leadingD arg.text 0)

/-- The fault of reading an argument in a declared slot. Words are not converted. -/
def coerceFault? : Script.Arg → Schema.SlotType → Option Integer.Oversize
  | _, .string => none
  | .word _, .integer => none
  | arg, .integer => Integer.leadingInFault? arg.text

/-- The values of arguments, typed by the declared slots and past them by how they were written, if
there were no limit on digits. -/
def ofArgs : List Script.Arg → List Schema.Slot → List Param
  | [], _ => []
  | arg :: args, [] => sniff arg :: ofArgs args []
  | arg :: args, slot :: slots => coerce arg slot.type :: ofArgs args slots

def argsFault? : List Script.Arg → List Schema.Slot → Option Integer.Oversize
  | [], _ => none
  | arg :: args, [] => (sniffFault? arg).or (argsFault? args [])
  | arg :: args, slot :: slots => (coerceFault? arg slot.type).or (argsFault? args slots)

def readArgs (args : List Script.Arg) (slots : List Schema.Slot) :
    Except Integer.Oversize (List Param) :=
  Integer.guarded (argsFault? args slots) (ofArgs args slots)

end Param

end QuestScript

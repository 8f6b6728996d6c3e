import QuestScript.Number.Integer
/-!
The limit on digits. An integer is converted from text, and to text, only if it has few enough
decimal digits; where it has more, the conversion fails and so does what asked for it. Reading and
printing are defined without the limit, and what is here says where they fail.
-/

namespace QuestScript.Integer

open QuestScript.Text

/-- Why an integer is not converted: a text has too many digits, or the integer would have as text. -/
inductive Oversize where
  | ofText (digits : Nat)
  | toText
deriving DecidableEq, Repr

/-- The wording of a conversion that fails. Only a text is said to have how many digits. -/
def Oversize.message : Oversize → String
  | .ofText digits =>
    "Exceeds the limit (" ++ toString maxDigits ++ " digits) for integer string conversion: " ++
      "value has " ++ toString digits ++ " digits; " ++
      "use sys.set_int_max_str_digits() to increase the limit"
  | .toText =>
    "Exceeds the limit (" ++ toString maxDigits ++ " digits) for integer string conversion; " ++
      "use sys.set_int_max_str_digits() to increase the limit"

/-- The fault of reading a run of digits. Zeros in front count. -/
def digitsFault? (digits : List Char) : Option Oversize :=
  if digits.length ≤ maxDigits then none else some (.ofText digits.length)

/-- The digits of the integer that a text begins with. -/
def leadingDigits (cs : List Char) : List Char := (splitSign cs).2.takeWhile isDecimal

def leadingFault? (cs : List Char) : Option Oversize := digitsFault? (leadingDigits cs)

/-- The fault of reading the integer that a text begins with after its blanks. -/
def leadingInFault? (text : String) : Option Oversize := leadingFault? (trimStart text.toList)

/-- Whether an integer has few enough digits. Its sign does not count. -/
def fits (n : Int) : Bool := n.natAbs < tenPow maxDigits

def textFault? (n : Int) : Option Oversize := if fits n then none else some .toText

/-- A result that comes after a conversion: there is none if the conversion fails. -/
def guarded {α : Type} (fault? : Option Oversize) (result : α) : Except Oversize α :=
  match fault? with
  | some fault => .error fault
  | none => .ok result

end QuestScript.Integer

import QuestScript.Files.FilePath
import QuestScript.Number.Limit
import QuestScript.Text.Digit
import QuestScript.Text.Quoted
/-!
Names of quest files. A quest file is named after the number of its quest, padded to five digits:
`00012.eqf` holds quest 12.
-/

namespace QuestScript.QuestFile

open QuestScript.Text

/-- Why a path gives no number: its name is none, or its digits are too many or not all decimal. -/
inductive NameError where
  | noNumber (name : String)
  | badDigits (stem : String)
  | oversize (fault : Integer.Oversize)
deriving DecidableEq, Repr

/-- The wording of a name error. A long stem is cut. -/
def NameError.message : NameError → String
  | .noNumber name => "Quest file name '" ++ name ++ "' is not a quest id"
  | .badDigits stem =>
    "invalid literal for int() with base 10: " ++
      String.ofList ((quoted stem).toList.take 200)
  | .oversize fault => fault.message

/-- Whether a stem consists of digits. -/
def isNumbered (stem : String) : Bool := !stem.isEmpty && stem.toList.all isDigit

/-- The number of a stem of digits. Decimal digits are counted before one is found that is not. -/
def stemNumber (stem : String) : Except NameError Int :=
  match Integer.digitsFault? (stem.toList.takeWhile isDecimal) with
  | some fault => .error (.oversize fault)
  | none =>
    match Integer.whole? stem with
    | some number => .ok number
    | none => .error (.badDigits stem)

/-- The number that a path gives its quest. -/
def number (path : FilePath) : Except NameError Int :=
  if isNumbered path.stem then stemNumber path.stem else .error (.noNumber path.name)

def suffix : String := ".eqf"

/-- The digits of a magnitude, padded with zeros to a width. -/
def paddedDigits (width magnitude : Nat) : List Char :=
  let digits := Nat.toDigits 10 magnitude
  List.replicate (width - digits.length) '0' ++ digits

/-- The name of the file of a quest, of any number of digits. A minus counts for the width. -/
def name (id : Int) : String :=
  String.ofList (if id < 0 then '-' :: paddedDigits 4 id.natAbs else paddedDigits 5 id.natAbs) ++
    suffix

end QuestScript.QuestFile

import QuestScript.Number.Power
import QuestScript.Text.Digit
import QuestScript.Text.Blank
/-!
Integers in texts, in decimal digits of any script: at the start of a text, where what follows does
not matter, and as a whole text.
-/

namespace QuestScript.Integer

open QuestScript.Text

/-- Reads on from a number whose digits are known so far. -/
def readDigitsFrom (value : Nat) : List Char → Nat
  | [] => value
  | c :: rest => readDigitsFrom (value * 10 + (decimalValue? c).getD 0) rest

/-- The value of a run of decimal digits. -/
def readDigits (digits : List Char) : Nat := readDigitsFrom 0 digits

/-- Splits off a sign: whether it is a minus, and the rest. -/
def splitSign : List Char → Bool × List Char
  | '+' :: rest => (false, rest)
  | '-' :: rest => (true, rest)
  | cs => (false, cs)

/-- A magnitude with its sign. -/
def signed (negative : Bool) (magnitude : Nat) : Int :=
  if negative then -(magnitude : Int) else magnitude

/-- The integer that a text begins with: an optional sign and the digits up to the first other
character, of which there must be one. -/
def leading? (cs : List Char) : Option Int :=
  let (negative, rest) := splitSign cs
  let digits := rest.takeWhile isDecimal
  if digits.isEmpty then none else some (signed negative (readDigits digits))

/-- The integer that a text begins with after its blanks. -/
def leadingIn? (text : String) : Option Int := leading? (trimStart text.toList)

/-- The integer that a text begins with after its blanks, or a default. -/
def leadingD (text : String) (default : Int) : Int := (leadingIn? text).getD default

/-- Whether a text is an integer literal: an optional sign and at least one digit. -/
def isLiteral (cs : List Char) : Bool :=
  let (_, rest) := splitSign cs
  !rest.isEmpty && rest.all isDecimal

/-- Takes the single underscores out from between digits; none if an underscore is not between
digits. -/
def joinGroups : List Char → Option (List Char)
  | [] => none
  | [c] => if isDecimal c then some [c] else none
  | c :: '_' :: rest => if isDecimal c then (joinGroups rest).map (c :: ·) else none
  | c :: rest => if isDecimal c then (joinGroups rest).map (c :: ·) else none

/-- Blanks that may stand around a whole number: all but the four information separators. -/
def isMargin (c : Char) : Bool := isBlank c && !(28 ≤ c.toNat && c.toNat ≤ 31)

def dropMargins (cs : List Char) : List Char :=
  ((cs.dropWhile isMargin).reverse.dropWhile isMargin).reverse

/-- How many decimal digits an integer may have where it is converted from text or to text. -/
def maxDigits : Nat := 4300

/-- The integer that a whole text is: blanks around it, a sign, and digits that may be grouped by
single underscores. A text with too many digits is none. -/
def whole? (text : String) : Option Int :=
  let (negative, rest) := splitSign (dropMargins text.toList)
  (joinGroups rest).bind fun digits =>
    if digits.length ≤ maxDigits then some (signed negative (readDigits digits)) else none

/-- Whether an integer can count characters or items: whether it has a place in 64 bits, one of
them for the sign. -/
def isIndexSized (n : Int) : Bool := -(twoPow 63 : Int) ≤ n && n < (twoPow 63 : Int)

/-- The wording for an integer that is too far from zero to count characters or items. -/
def notIndexSized : String := "cannot fit 'int' into an index-sized integer"

end QuestScript.Integer

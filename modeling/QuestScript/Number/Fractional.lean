import QuestScript.Number.Integer
import QuestScript.Number.Binary64
/-!
Fractional numbers at the start of a text, in decimal digits of any script: a sign, digits with a
point among them, before or after, and an exponent.
-/

namespace QuestScript.Fractional

open QuestScript.Text QuestScript.Integer

def splitDigits (cs : List Char) : List Char × List Char :=
  (cs.takeWhile isDecimal, cs.dropWhile isDecimal)

/-- Splits off a point and the digits after it. A point without digits is split off only where
digits stand before it. -/
def splitFraction (hasWhole : Bool) (cs : List Char) : List Char × List Char :=
  match cs with
  | '.' :: rest =>
    let (digits, rest') := splitDigits rest
    if digits.isEmpty && !hasWhole then ([], cs) else (digits, rest')
  | _ => ([], cs)

/-- The exponent at the start of a text; zero if there is none. -/
def exponent (cs : List Char) : Int :=
  match cs with
  | e :: rest => if e = 'e' || e = 'E' then (leading? rest).getD 0 else 0
  | [] => 0

/-- The number that a text begins with, if it begins with one. -/
def leading? (cs : List Char) : Option Binary64 :=
  let (negative, unsigned) := splitSign cs
  let (whole, rest) := splitDigits unsigned
  let (fraction, rest') := splitFraction (!whole.isEmpty) rest
  if whole.isEmpty && fraction.isEmpty then none
  else
    some (Binary64.ofDecimal negative (readDigits (whole ++ fraction))
      (exponent rest' - fraction.length))

end QuestScript.Fractional

import QuestScript.Number.Binary64
/-!
The text of a floating-point number: the fewest decimal digits that read back as the number, and
of those the ones nearest to it.
-/

namespace QuestScript.Binary64

/-- Digits times a power of ten. -/
structure Decimal where
  digits : Nat
  exponent : Int
deriving DecidableEq, Repr

/-- Compares `k * 10 ^ p` with `x * 2 ^ e`. -/
def compareScaled (k : Nat) (p : Int) (x : Nat) (e : Int) : Ordering :=
  compare (k * tenPow p.toNat * twoPow (-e).toNat) (x * twoPow e.toNat * tenPow (-p).toNat)

/-- Four times the significand of the lower and the upper end of the decimals that round to
`significand * 2 ^ exponent`, and whether the ends round to it too. The gap below a power of two is
half as wide as the others. -/
def quadEnds (significand : Nat) (exponent : Int) : Nat × Nat × Bool :=
  let below := if significand = twoPow 52 ∧ exponent > minExponent then 1 else 2
  (4 * significand - below, 4 * significand + 2, significand % 2 = 0)

/-- Whether `k * 10 ^ p` rounds to `significand * 2 ^ exponent`. -/
def readsBack (significand : Nat) (exponent : Int) (k : Nat) (p : Int) : Bool :=
  let (low, high, closed) := quadEnds significand exponent
  match compareScaled k p low (exponent - 2), compareScaled k p high (exponent - 2) with
  | .gt, .lt => true
  | .eq, .lt => closed
  | .gt, .eq => closed
  | _, _ => false

/-- The exponent `k` with `10 ^ k ≤ significand * 2 ^ exponent < 10 ^ (k + 1)`, for a finite number
other than zero. All of them are above `10 ^ -330`. -/
def decimalOrder (significand : Nat) (exponent : Int) : Int :=
  let scaled := significand * twoPow exponent.toNat * tenPow 330 / twoPow (-exponent).toNat
  ((Nat.toDigits 10 scaled).length : Int) - 331

/-- The decimal nearest to the number among those of `count` digits that read back. Only the two
neighbours of the number can be; from the middle it is the even one. -/
def ofCount? (significand : Nat) (exponent : Int) (count : Nat) : Option Decimal :=
  let p := decimalOrder significand exponent - (count : Int) + 1
  let num := significand * twoPow exponent.toNat * tenPow (-p).toNat
  let den := twoPow (-exponent).toNat * tenPow p.toNat
  let below := num / den
  let nearer := roundDiv num den
  let farther := if nearer = below then below + 1 else below
  if readsBack significand exponent nearer p then some ⟨nearer, p⟩
  else if readsBack significand exponent farther p then some ⟨farther, p⟩
  else none

/-- The shortest decimal that reads back, tried from one digit up to seventeen, which always do. -/
def shortest (significand : Nat) (exponent : Int) : Decimal :=
  ((List.range 17).findSome? fun i => ofCount? significand exponent (i + 1)).getD ⟨0, 0⟩

/-- Moves zeros at the end of the digits into the exponent. -/
def stripZeros (digits : List Char) : List Char := (digits.reverse.dropWhile (· == '0')).reverse

/-- Which decimal exponents of the first digit are written in positional notation. -/
def isPositional (order : Int) : Bool := -4 ≤ order && order ≤ 15

/-- Digits with the point after the first of them, unless there is only one. -/
def pointAfterFirst : List Char → List Char
  | d :: d' :: rest => d :: '.' :: d' :: rest
  | digits => digits

/-- An exponent with its sign and at least two digits. -/
def exponentText (order : Int) : List Char :=
  let digits := Nat.toDigits 10 order.natAbs
  (if order < 0 then '-' else '+') :: (if digits.length < 2 then '0' :: digits else digits)

/-- Digits with the point where the exponent of the first of them says, and at least one digit on
either side of it. -/
def positional (digits : List Char) (order : Int) : List Char :=
  if order < 0 then
    '0' :: '.' :: List.replicate ((-order).toNat - 1) '0' ++ digits
  else
    let whole := digits.take (order.toNat + 1)
    let padded := whole ++ List.replicate (order.toNat + 1 - whole.length) '0'
    let fraction := digits.drop (order.toNat + 1)
    padded ++ '.' :: (if fraction.isEmpty then ['0'] else fraction)

/-- The digits of a magnitude, positional near one and with an exponent elsewhere. -/
def magnitudeText (significand : Nat) (exponent : Int) : List Char :=
  if significand = 0 then "0.0".toList
  else
    let decimal := shortest significand exponent
    let digits := Nat.toDigits 10 decimal.digits
    let order := decimal.exponent + (digits.length : Int) - 1
    let digits := stripZeros digits
    if isPositional order then positional digits order
    else pointAfterFirst digits ++ 'e' :: exponentText order

def text : Binary64 → String
  | .finite negative significand exponent =>
    String.ofList ((if negative then ['-'] else []) ++ magnitudeText significand exponent)
  | .infinite negative => if negative then "-inf" else "inf"
  | .nan => "nan"

end QuestScript.Binary64

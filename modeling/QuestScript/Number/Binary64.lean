import QuestScript.Number.Power
/-!
Binary floating-point numbers of 64 bits, as exact values: a sign and a significand scaled by a
power of two, an infinity, or no number. Every result is rounded once, to the nearest value and
from the middle to the even significand, by `Binary64.nearest`.
-/

namespace QuestScript

/-- A 64-bit floating-point number. A finite one is `±significand * 2 ^ exponent`, with the
significand below `2 ^ 53` and the exponent as small as it can be, but not below `-1074`. -/
inductive Binary64 where
  | finite (negative : Bool) (significand : Nat) (exponent : Int)
  | infinite (negative : Bool)
  | nan
deriving DecidableEq, Repr

namespace Binary64

/-- The smallest exponent, that of the numbers nearest to zero. -/
def minExponent : Int := -1074

def maxExponent : Int := 971

def zero (negative : Bool) : Binary64 := .finite negative 0 minExponent

/-- The quotient rounded to the nearest integer, from the middle to the even one. -/
def roundDiv (num den : Nat) : Nat :=
  let quotient := num / den
  let twice := 2 * (num % den)
  if twice < den ∨ (twice = den ∧ quotient % 2 = 0) then quotient else quotient + 1

/-- The exponent `k` with `2 ^ k ≤ num / den < 2 ^ (k + 1)`. -/
def binaryOrder (num den : Nat) : Int :=
  let guess : Int := (num.log2 : Int) - (den.log2 : Int)
  if num * twoPow (-guess).toNat < den * twoPow guess.toNat then guess - 1 else guess

/-- The number nearest to a nonnegative fraction, with a sign. Beyond the largest finite number it
is infinite, and below half the smallest it is zero. -/
def nearest (negative : Bool) (num den : Nat) : Binary64 :=
  if num = 0 then zero negative
  else
    let exponent := max (binaryOrder num den - 52) minExponent
    let significand := roundDiv (num * twoPow (-exponent).toNat) (den * twoPow exponent.toNat)
    let (significand, exponent) :=
      if significand = twoPow 53 then (twoPow 52, exponent + 1) else (significand, exponent)
    if exponent > maxExponent then .infinite negative
    else .finite negative significand exponent

/-- How many decimal places a number may lie from one before it is sure to be infinite, or zero. -/
def decimalReach : Int := 400

/-- The number nearest to `±digits * 10 ^ exponent`. -/
def ofDecimal (negative : Bool) (digits : Nat) (exponent : Int) : Binary64 :=
  let order : Int := exponent + ((Nat.toDigits 10 digits).length : Int)
  if digits = 0 then zero negative
  else if order > decimalReach then .infinite negative
  else if order < -decimalReach then zero negative
  else nearest negative (digits * tenPow exponent.toNat) (tenPow (-exponent).toNat)

/-- The number nearest to an integer; none for an integer beyond the largest finite number. -/
def ofInt? (n : Int) : Option Binary64 :=
  match nearest (decide (n < 0)) n.natAbs 1 with
  | .infinite _ => none
  | x => some x

def toInt? : Binary64 → Option Int
  | .finite negative significand exponent =>
    let numerator := significand * twoPow exponent.toNat
    let denominator := twoPow (-exponent).toNat
    if numerator % denominator = 0 then
      let magnitude : Int := ((numerator / denominator : Nat) : Int)
      some (if negative then -magnitude else magnitude)
    else none
  | _ => none

def isFinite : Binary64 → Bool
  | .finite .. => true
  | _ => false

/-- Whether a number is less than zero. Neither zero is. -/
def isNegative : Binary64 → Bool
  | .finite negative significand _ => negative && significand != 0
  | .infinite negative => negative
  | .nan => false

/-- The signed significand of a number at an exponent no larger than its own. -/
def scaledAt (negative : Bool) (significand : Nat) (own exponent : Int) : Int :=
  let magnitude : Int := ((significand * twoPow (own - exponent).toNat : Nat) : Int)
  if negative then -magnitude else magnitude

/-- The number nearest to the sum. A sum that cancels is the positive zero, and two zeros of one
sign keep it. -/
def add : Binary64 → Binary64 → Binary64
  | .nan, _ => .nan
  | _, .nan => .nan
  | .infinite negative, .infinite negative' => if negative = negative' then .infinite negative else .nan
  | .infinite negative, _ => .infinite negative
  | _, .infinite negative => .infinite negative
  | .finite negative m e, .finite negative' m' e' =>
    let exponent := min e e'
    let sum := scaledAt negative m e exponent + scaledAt negative' m' e' exponent
    if sum = 0 then zero (negative && negative')
    else nearest (decide (sum < 0)) (sum.natAbs * twoPow exponent.toNat) (twoPow (-exponent).toNat)

/-- Whether two numbers have one value. The two zeros do. -/
def sameValue : Binary64 → Binary64 → Bool
  | .finite negative m e, .finite negative' m' e' =>
    let exponent := min e e'
    scaledAt negative m e exponent == scaledAt negative' m' e' exponent
  | x, y => x == y

end Binary64

end QuestScript

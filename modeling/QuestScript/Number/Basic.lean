import QuestScript.Number.Limit
import QuestScript.Number.Shortest
/-!
Numbers as documents and scripts hold them: integers of any size, and floating-point numbers where
a document was written with a fraction or an exponent. The two stay apart when printed and agree
when compared.
-/

namespace QuestScript

/-- An integer, or a floating-point number. -/
inductive Number where
  | int (value : Int)
  | float (value : Binary64)
deriving DecidableEq, Repr

namespace Number

instance : Inhabited Number := ⟨.int 0⟩

instance : Coe Int Number := ⟨.int⟩

instance (n : Nat) : OfNat Number n := ⟨.int n⟩

/-- The text of a number. A floating-point number shows a point or an exponent. -/
def text : Number → String
  | .int n => toString n
  | .float x => x.text

/-- The fault of writing a number. Only integers have one. -/
def textFault? : Number → Option Integer.Oversize
  | .int n => Integer.textFault? n
  | .float _ => none

def toInt? : Number → Option Int
  | .int n => some n
  | .float x => x.toInt?

def isNegative : Number → Bool
  | .int n => decide (n < 0)
  | .float x => x.isNegative

/-- Whether two numbers have one value, however they are written. -/
def sameValue : Number → Number → Bool
  | .int n, .int m => n == m
  | .float x, .float y => x.sameValue y
  | .int n, .float x => x.toInt? == some n
  | .float x, .int n => x.toInt? == some n

/-- The sum. It is a floating-point number as soon as one summand is; there is none when the other
is an integer beyond the floating-point range. -/
def add? : Number → Number → Option Number
  | .int n, .int m => some (.int (n + m))
  | .float x, .float y => some (.float (x.add y))
  | .int n, .float y => (Binary64.ofInt? n).map fun x => .float (x.add y)
  | .float x, .int m => (Binary64.ofInt? m).map fun y => .float (x.add y)

end Number

end QuestScript

/-!
The powers that scale numbers: those of two and of ten.
-/

namespace QuestScript

def twoPow (exponent : Nat) : Nat := Nat.pow 2 exponent

def tenPow (exponent : Nat) : Nat := Nat.pow 10 exponent

end QuestScript

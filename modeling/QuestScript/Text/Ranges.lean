/-!
Sorted lists of closed code-point ranges, as the character tables are written.
-/

namespace QuestScript.Text

/-- Whether `code` lies in one of the ranges of a table sorted by first code point. The search
stops at the first range that begins beyond `code`. -/
def inRanges (code : Nat) : List (Nat × Nat) → Bool
  | [] => false
  | (first, last) :: rest =>
    if code < first then false
    else if code ≤ last then true
    else inRanges code rest

end QuestScript.Text

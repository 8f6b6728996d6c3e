import QuestScript.Text.Ranges
/-!
Blank characters, and texts without the blanks at their ends.
-/

namespace QuestScript.Text

/-- Code-point ranges of the blanks: the ASCII spaces and separators, next line, and the Unicode
spaces and line separators. -/
def blankRanges : List (Nat × Nat) :=
  [(9, 13), (28, 32), (133, 133), (160, 160), (5760, 5760), (8192, 8202), (8232, 8233),
   (8239, 8239), (8287, 8287), (12288, 12288)]

/-- Blanks of any kind, line breaks included. The byte order mark is not a blank. -/
def isBlank (c : Char) : Bool := inRanges c.toNat blankRanges

def trimStart (cs : List Char) : List Char := cs.dropWhile isBlank

def trimEnd (cs : List Char) : List Char := (cs.reverse.dropWhile isBlank).reverse

def trim (cs : List Char) : List Char := trimEnd (trimStart cs)

def trimmed (s : String) : String := String.ofList (trim s.toList)

end QuestScript.Text

import QuestScript.Text.Blank
/-!
Lines of a text. Two notions of a line break are in use: any of the Unicode line breaks, for texts
read line by line, and the three file conventions for a newline, which reading a file folds into
the line feed.
-/

namespace QuestScript.Text

/-- Line breaks of any kind: line feed, carriage return, vertical tab, form feed, the information
separators from file to record, next line, and the Unicode line and paragraph separators. -/
def isLineBreak (c : Char) : Bool :=
  inRanges c.toNat [(0x0A, 0x0D), (0x1C, 0x1E), (0x85, 0x85), (0x2028, 0x2029)]

/-- Prefixes a character to the first line, starting one if there is none. -/
def consLine (c : Char) : List (List Char) → List (List Char)
  | [] => [[c]]
  | line :: lines => (c :: line) :: lines

/-- The lines of a text without their breaks. A carriage return and the line feed after it are one
break. A break at the very end does not start another line, so the empty text has no line. -/
def splitLines : List Char → List (List Char)
  | [] => []
  | '\r' :: '\n' :: rest => [] :: splitLines rest
  | c :: rest => if isLineBreak c then [] :: splitLines rest else consLine c (splitLines rest)

/-- Folds the newline conventions of files into the line feed: a carriage return with the line
feed after it, or alone, becomes one line feed. -/
def unifyNewlines : List Char → List Char
  | [] => []
  | '\r' :: '\n' :: rest => '\n' :: unifyNewlines rest
  | c :: rest => (if c = '\r' then '\n' else c) :: unifyNewlines rest

/-- The pieces between the occurrences of a separator, empty ones included: one more piece than
there are separators. -/
def splitAtChar (separator : Char) : List Char → List (List Char)
  | [] => [[]]
  | c :: rest =>
    if c = separator then [] :: splitAtChar separator rest
    else consLine c (splitAtChar separator rest)

end QuestScript.Text

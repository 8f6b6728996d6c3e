/-!
Letter case of keywords. Keywords are ASCII, so a text only has to be brought into the case of the
keywords as far as that can make it one of them.
-/

namespace QuestScript.Text

/-- The text with its ASCII capitals lowered and all else kept. No other character is the capital
of a letter of a keyword. -/
def lowered (s : String) : String := String.ofList (s.toList.map Char.toLower)

/-- The capital of a letter, for the ASCII letters and the two others whose capital is ASCII: the
dotless i and the long s. -/
def raisedChar (c : Char) : Char :=
  if c = 'ı' then 'I' else if c = 'ſ' then 'S' else c.toUpper

/-- The text with the letters raised whose capitals are ASCII, and all else kept. -/
def raised (s : String) : String := String.ofList (s.toList.map raisedChar)

end QuestScript.Text

import QuestScript.Script.Lexer
import QuestScript.Quest.Printer
/-!
Classes of characters have nothing in common: a character that begins an identifier begins neither a
number nor a gap. So the first character of a token says of which class the token is.
-/

namespace QuestScript.Text

/-- Whether no code point lies in a range of both tables, found in so many steps through both. -/
def separate : Nat → List (Nat × Nat) → List (Nat × Nat) → Bool
  | _, [], _ => true
  | _, _, [] => true
  | 0, _, _ => false
  | steps + 1, range :: left, other :: right =>
    if range.2 < other.1 then separate steps left (other :: right)
    else if other.2 < range.1 then separate steps (range :: left) right
    else false

/-- A code point of the one table is not found in the other. -/
theorem inRanges_eq_false_of_separate {code : Nat} (steps : Nat) {left right : List (Nat × Nat)}
    (hSeparate : separate steps left right = true) (hCode : inRanges code left = true) :
    inRanges code right = false := by
  fun_induction separate steps left right with
  | case1 => simp [inRanges] at hCode
  | case2 => rfl
  | case3 => cases hSeparate
  | case4 steps range left other right hBelow ih =>
      rw [inRanges] at hCode
      by_cases hLast : code ≤ range.2
      · rw [inRanges, if_pos (by omega)]
      · by_cases hFirst : code < range.1
        · simp [hFirst] at hCode
        · rw [if_neg hFirst, if_neg hLast] at hCode
          exact ih hSeparate hCode
  | case5 steps range left other right _ hAbove ih =>
      have hFirst : ¬code < range.1 := by
        intro hBefore
        simp [inRanges, hBefore] at hCode
      by_cases hBefore : code < other.1
      · rw [inRanges, if_pos hBefore]
      · rw [inRanges, if_neg hBefore, if_neg (by omega)]
        exact ih hSeparate hCode
  | case6 => cases hSeparate

/-- Which tables of characters list no code point in common, and which do not list the byte order
mark. -/
structure TablesApart : Prop where
  letterBlank : separate 800 letterRanges blankRanges = true
  letterDigit : separate 800 letterRanges digitRanges = true
  letterDecimal : separate 800 letterRanges decimalRanges = true
  digitBlank : separate 800 digitRanges blankRanges = true
  numericBlank : separate 800 numericRanges blankRanges = true
  letterMark : isLetter '\ufeff' = false
  digitMark : isDigit '\ufeff' = false

/-- The long tables are walked here and nowhere else. -/
theorem tablesApart : TablesApart := by
  constructor <;> decide +kernel

theorem isBlank_eq_false_of_isLetter {c : Char} (hLetter : isLetter c = true) :
    isBlank c = false :=
  inRanges_eq_false_of_separate 800 tablesApart.letterBlank hLetter

theorem isDigit_eq_false_of_isLetter {c : Char} (hLetter : isLetter c = true) :
    isDigit c = false :=
  inRanges_eq_false_of_separate 800 tablesApart.letterDigit hLetter

theorem isDecimal_eq_false_of_isLetter {c : Char} (hLetter : isLetter c = true) :
    isDecimal c = false :=
  inRanges_eq_false_of_separate 800 tablesApart.letterDecimal hLetter

theorem isBlank_eq_false_of_isDigit {c : Char} (hDigit : isDigit c = true) : isBlank c = false :=
  inRanges_eq_false_of_separate 800 tablesApart.digitBlank hDigit

theorem ne_of_isLetter {c d : Char} (hLetter : isLetter c = true) (hOther : isLetter d = false) :
    c ≠ d := by
  intro hEq
  rw [hEq, hOther] at hLetter
  cases hLetter

theorem ne_of_isDigit {c d : Char} (hDigit : isDigit c = true) (hOther : isDigit d = false) :
    c ≠ d := by
  intro hEq
  rw [hEq, hOther] at hDigit
  cases hDigit

end QuestScript.Text

namespace QuestScript.Script

open QuestScript.Text

theorem isGapChar_eq_false_of_isIdentStart {c : Char} (hStart : isIdentStart c = true) :
    isGapChar c = false := by
  simp only [isIdentStart, Bool.or_eq_true, decide_eq_true_eq] at hStart
  rcases hStart with hLetter | rfl
  · have hMark : c ≠ '\ufeff' := ne_of_isLetter hLetter tablesApart.letterMark
    simp [isGapChar, isBlank_eq_false_of_isLetter hLetter, hMark]
  · decide

theorem isNumberStart_eq_false_of_isIdentStart {c : Char} (hStart : isIdentStart c = true) :
    isNumberStart c = false := by
  simp only [isIdentStart, Bool.or_eq_true, decide_eq_true_eq] at hStart
  rcases hStart with hLetter | rfl
  · have hPlus : c ≠ '+' := ne_of_isLetter hLetter (by decide)
    have hMinus : c ≠ '-' := ne_of_isLetter hLetter (by decide)
    have hPoint : c ≠ '.' := ne_of_isLetter hLetter (by decide)
    simp [isNumberStart, isDigit_eq_false_of_isLetter hLetter, hPlus, hMinus, hPoint]
  · decide

theorem isGapChar_eq_false_of_isNumberStart {c : Char} (hStart : isNumberStart c = true) :
    isGapChar c = false := by
  simp only [isNumberStart, Bool.or_eq_true, decide_eq_true_eq] at hStart
  rcases hStart with ((hDigit | rfl) | rfl) | rfl
  · have hMark : c ≠ '\ufeff' := ne_of_isDigit hDigit tablesApart.digitMark
    simp [isGapChar, isBlank_eq_false_of_isDigit hDigit, hMark]
  · decide
  · decide
  · decide

theorem isBlank_eq_false_of_isIdentChar {c : Char} (hChar : isIdentChar c = true) :
    isBlank c = false := by
  simp only [isIdentChar, isAlphanumeric, Bool.or_eq_true, decide_eq_true_eq] at hChar
  rcases hChar with (hLetter | hNumeric) | rfl
  · exact isBlank_eq_false_of_isLetter hLetter
  · exact inRanges_eq_false_of_separate 800 tablesApart.numericBlank hNumeric
  · decide

theorem isDecimal_eq_false_of_isIdentStart {c : Char} (hStart : isIdentStart c = true) :
    isDecimal c = false := by
  simp only [isIdentStart, Bool.or_eq_true, decide_eq_true_eq] at hStart
  rcases hStart with hLetter | rfl
  · exact isDecimal_eq_false_of_isLetter hLetter
  · decide

theorem isBlank_eq_false_of_isNumberChar {c : Char} (hChar : isNumberChar c = true) :
    isBlank c = false := by
  simp only [isNumberChar, Bool.or_eq_true, decide_eq_true_eq] at hChar
  rcases hChar with hDigit | rfl
  · exact isBlank_eq_false_of_isDigit hDigit
  · decide

theorem isBlank_eq_false_of_isGapChar {c : Char} (hGap : isGapChar c = false) :
    isBlank c = false := by
  rw [isGapChar, Bool.or_eq_false_iff] at hGap
  exact hGap.1

theorem ne_of_isIdentStart {c d : Char} (hStart : isIdentStart c = true)
    (hOther : isIdentStart d = false) : c ≠ d := by
  intro hEq
  rw [hEq, hOther] at hStart
  cases hStart

theorem ne_of_isNumberStart {c d : Char} (hStart : isNumberStart c = true)
    (hOther : isNumberStart d = false) : c ≠ d := by
  intro hEq
  rw [hEq, hOther] at hStart
  cases hStart

/-! ### ASCII identifiers -/

theorem isLetter_of_isAlpha {c : Char} (hAlpha : c.isAlpha = true) : isLetter c = true := by
  have hCase : (decide (65 ≤ c.val ∧ c.val ≤ 90) || (decide (97 ≤ c.val) && decide (c.val ≤ 122))) =
      true := hAlpha
  have hCode : (65 ≤ c.toNat ∧ c.toNat ≤ 90) ∨ (97 ≤ c.toNat ∧ c.toNat ≤ 122) := by
    simpa [UInt32.le_iff_toNat_le] using hCase
  rw [isLetter, letterRanges]
  rcases hCode with hUpper | hLower
  · rw [inRanges, if_neg (by omega), if_pos (by omega)]
  · rw [inRanges, if_neg (by omega), if_neg (by omega), inRanges, if_neg (by omega),
      if_pos (by omega)]

/-- The ASCII letters that begin a plain name begin a word. -/
theorem isIdentStart_of_isPlainStart {c : Char} (hStart : isPlainStart c = true) :
    isIdentStart c = true := by
  simp only [isPlainStart, isIdentStart, Bool.or_eq_true, decide_eq_true_eq] at hStart ⊢
  exact hStart.imp_left isLetter_of_isAlpha

theorem isIdentChar_of_isPlainChar {c : Char} (hChar : isPlainChar c = true) :
    isIdentChar c = true := by
  simp only [isPlainChar, isIdentChar, Char.isAlphanum, isAlphanumeric, Bool.or_eq_true,
    decide_eq_true_eq] at hChar ⊢
  rcases hChar with (hAlpha | hDigit) | hLow
  · exact Or.inl (Or.inl (isLetter_of_isAlpha hAlpha))
  · have hCode : 48 ≤ c.toNat ∧ c.toNat ≤ 57 := by
      simpa [Char.isDigit, UInt32.le_iff_toNat_le] using hDigit
    refine Or.inl (Or.inr ?_)
    rw [numericRanges, inRanges, if_neg (by omega), if_pos (by omega)]
  · exact Or.inr hLow

end QuestScript.Script

import QuestScript.Quest.Printer
import QuestScript.Proofs.Script.Shape
/-!
Integers written in decimal: the text of an integer is a number of scripts, an integer literal, and
begins with that integer. Only ASCII digits are written, though those of any script are read.
-/

namespace QuestScript.Integer

open QuestScript.Text

theorem decimalValue?_of_isDigit {c : Char} (hDigit : c.isDigit = true) :
    decimalValue? c = some (c.toNat - '0'.toNat) := by
  have hCode : 48 ≤ c.toNat ∧ c.toNat ≤ 57 := by
    simpa [Char.isDigit, UInt32.le_iff_toNat_le] using hDigit
  have hZero : '0'.toNat = 48 := rfl
  rw [decimalValue?, decimalRanges, decimalValueIn, if_neg (by omega), if_pos hCode.2, hZero,
    Nat.mod_eq_of_lt (by omega)]

theorem isDecimal_of_isDigit {c : Char} (hDigit : c.isDigit = true) : isDecimal c = true := by
  rw [isDecimal_eq_isSome, decimalValue?_of_isDigit hDigit]
  rfl

theorem isDigit_of_isDigit {c : Char} (hDigit : c.isDigit = true) : Text.isDigit c = true := by
  have hCode : 48 ≤ c.toNat ∧ c.toNat ≤ 57 := by
    simpa [Char.isDigit, UInt32.le_iff_toNat_le] using hDigit
  rw [Text.isDigit, digitRanges, inRanges, if_neg (by omega), if_pos hCode.2]

theorem isNumberChar_of_isDigit {c : Char} (hDigit : c.isDigit = true) :
    Script.isNumberChar c = true := by
  rw [Script.isNumberChar, isDigit_of_isDigit hDigit, Bool.true_or]

theorem isBlank_of_isDigit {c : Char} (hDigit : c.isDigit = true) : isBlank c = false := by
  have hCode : 48 ≤ c.toNat ∧ c.toNat ≤ 57 := by
    simpa [Char.isDigit, UInt32.le_iff_toNat_le] using hDigit
  simp only [isBlank, blankRanges, inRanges]
  grind

/-- Digits of the ASCII range are read as the library reads them. The reader here takes those of
other scripts too. -/
theorem readDigitsFrom_eq_ofDigitChars {digits : List Char} (value : Nat)
    (hDigits : ∀ c ∈ digits, c.isDigit = true) :
    readDigitsFrom value digits = Nat.ofDigitChars 10 digits value := by
  induction digits generalizing value with
  | nil => rw [readDigitsFrom, Nat.ofDigitChars_nil]
  | cons c rest ih =>
      rw [readDigitsFrom, decimalValue?_of_isDigit (hDigits c (by simp)), Option.getD_some,
        ih _ fun d hMem => hDigits d (by simp [hMem]), Nat.ofDigitChars_cons, Nat.mul_comm]

/-- The digits of a number give it back. -/
theorem readDigits_toDigits (n : Nat) : readDigits (Nat.toDigits 10 n) = n := by
  rw [readDigits, readDigitsFrom_eq_ofDigitChars 0
    fun c hMem => Nat.isDigit_of_mem_toDigits (by decide) (by decide) hMem]
  exact Nat.ofDigitChars_ten_toDigits

/-- The text of an integer: its digits, after a minus if it is below zero. -/
theorem toList_toString (n : Int) :
    (toString n).toList =
      (if n < 0 then ['-'] else []) ++ Nat.toDigits 10 n.natAbs := by
  rw [Int.toString_eq_repr, Int.repr_eq_if]
  by_cases hSign : n < 0
  · rw [if_neg (by omega), if_pos hSign, String.toList_append, Nat.toList_repr,
      show (-n).toNat = n.natAbs by omega]
    rfl
  · rw [if_pos (by omega), if_neg hSign, Nat.toList_repr, show n.toNat = n.natAbs by omega]
    rfl

theorem toDigits_shape (n : Nat) :
    ∃ c rest, Nat.toDigits 10 n = c :: rest ∧ ∀ d ∈ c :: rest, d.isDigit = true := by
  cases hDigits : Nat.toDigits 10 n with
  | nil => exact absurd hDigits Nat.toDigits_ne_nil
  | cons c rest =>
      refine ⟨c, rest, rfl, fun d hMem => ?_⟩
      rw [← hDigits] at hMem
      exact Nat.isDigit_of_mem_toDigits (by decide) (by decide) hMem

theorem splitSign_of_isDigit {c : Char} (rest : List Char) (hDigit : c.isDigit = true) :
    splitSign (c :: rest) = (false, c :: rest) := by
  unfold splitSign
  split
  · next hCons => cases hCons; simp [Char.isDigit] at hDigit
  · next hCons => cases hCons; simp [Char.isDigit] at hDigit
  · rfl

/-- A printed integer splits into its sign and the digits of its magnitude. -/
theorem splitSign_toString (n : Int) :
    splitSign (toString n).toList = (decide (n < 0), Nat.toDigits 10 n.natAbs) := by
  rw [toList_toString]
  by_cases hSign : n < 0
  · rw [if_pos hSign, decide_eq_true hSign]
    rfl
  · obtain ⟨c, rest, hDigits, hAll⟩ := toDigits_shape n.natAbs
    rw [if_neg hSign, decide_eq_false hSign, List.nil_append, hDigits]
    exact splitSign_of_isDigit rest (hAll c (by simp))

theorem trimStart_toString (n : Int) : trimStart (toString n).toList = (toString n).toList := by
  obtain ⟨c, rest, hDigits, hAll⟩ := toDigits_shape n.natAbs
  rw [toList_toString, hDigits, trimStart]
  by_cases hSign : n < 0
  · rw [if_pos hSign]
    exact List.dropWhile_cons_of_neg (by decide)
  · rw [if_neg hSign]
    exact List.dropWhile_cons_of_neg (by simp [isBlank_of_isDigit (hAll c (by simp))])

/-- An integer is its magnitude with its sign put back. -/
theorem signed_natAbs (n : Int) : signed (decide (n < 0)) n.natAbs = n := by
  by_cases hSign : n < 0
  · rw [signed, if_pos (by simpa using hSign)]
    omega
  · rw [signed, if_neg (by simpa using hSign)]
    omega

/-- The text of an integer begins with that integer. -/
theorem leadingD_toString (n default : Int) : leadingD (toString n) default = n := by
  obtain ⟨c, rest, hDigits, hAll⟩ := toDigits_shape n.natAbs
  have hTake : (Nat.toDigits 10 n.natAbs).takeWhile isDecimal = Nat.toDigits 10 n.natAbs := by
    have hAppend : (c :: rest ++ []).takeWhile isDecimal = c :: rest ++ [].takeWhile isDecimal :=
      List.takeWhile_append_of_pos fun d hMem => isDecimal_of_isDigit (hAll d hMem)
    rw [hDigits]
    simpa using hAppend
  rw [leadingD, leadingIn?, trimStart_toString, leading?, splitSign_toString]
  simp only [hTake]
  rw [if_neg (by simp [hDigits]), readDigits_toDigits, signed_natAbs, Option.getD_some]

/-- Every printed integer is a literal, so no integer is printed as a word. -/
theorem isLiteral_toString (n : Int) : isLiteral (toString n).toList = true := by
  obtain ⟨c, rest, hDigits, hAll⟩ := toDigits_shape n.natAbs
  rw [isLiteral, splitSign_toString]
  simp only [hDigits, List.isEmpty_cons, Bool.not_false, Bool.true_and, List.all_eq_true]
  exact fun d hMem => isDecimal_of_isDigit (hAll d hMem)

/-- The text of an integer is a number of scripts. -/
theorem admits_toString (n : Int) : Script.Kind.number.admits (toString n).toList = true := by
  obtain ⟨c, rest, hDigits, hAll⟩ := toDigits_shape n.natAbs
  have hNumber : ∀ d ∈ c :: rest, Script.isNumberChar d = true :=
    fun d hMem => isNumberChar_of_isDigit (hAll d hMem)
  rw [toList_toString, hDigits]
  by_cases hSign : n < 0
  · rw [if_pos hSign]
    change (Script.isNumberStart '-' && (c :: rest).all Script.isNumberChar) = true
    rw [List.all_eq_true.2 hNumber]
    rfl
  · rw [if_neg hSign]
    change (Script.isNumberStart c && rest.all Script.isNumberChar) = true
    have hStart : Script.isNumberStart c = true := by
      have hHead := hNumber c (by simp)
      simp only [Script.isNumberChar, Script.isNumberStart, Bool.or_eq_true] at hHead ⊢
      tauto
    rw [hStart, List.all_eq_true.2 fun d hMem => hNumber d (by simp [hMem])]
    rfl

end QuestScript.Integer

namespace QuestScript.Param

/-- An integer as it is written is typed as that integer. -/
theorem sniff_toString (n : Int) : sniff (.number (toString n)) = .int n := by
  rw [sniff, if_pos (Integer.isLiteral_toString n), Integer.leadingD_toString]

end QuestScript.Param

import QuestScript.Quest.Printer
import QuestScript.Text.Lines
import Mathlib.Data.List.DropRight
/-!
Texts that are put together from lines are split into these lines again, and trimming takes no more
than the blanks at the ends.
-/

namespace QuestScript.Text

/-- A line break is a blank. -/
theorem isLineBreak_eq_false {c : Char} (hBlank : isBlank c = false) : isLineBreak c = false := by
  simp only [isBlank, blankRanges, isLineBreak, inRanges] at hBlank ⊢
  grind

theorem isLineBreak_eq_false_of_all {text : List Char}
    (hText : text.all (fun c => !isLineBreak c) = true) : ∀ c ∈ text, isLineBreak c = false := by
  simpa using hText

/-! ### Lines -/

theorem splitLines_cons {c : Char} (hBreak : isLineBreak c = false) (rest : List Char) :
    splitLines (c :: rest) = consLine c (splitLines rest) := by
  rw [splitLines]
  · rw [if_neg (by simp [hBreak])]
  · rintro rest' rfl
    exact absurd hBreak (by decide)

/-- A line without a break in it is the first line of a text that breaks after it. -/
theorem splitLines_lineFeed {line : List Char} (hLine : ∀ c ∈ line, isLineBreak c = false)
    (rest : List Char) : splitLines (line ++ '\n' :: rest) = line :: splitLines rest := by
  induction line with
  | nil => rfl
  | cons c line ih =>
      obtain ⟨hChar, hTail⟩ := List.forall_mem_cons.1 hLine
      rw [List.cons_append, splitLines_cons hChar, ih hTail]
      rfl

/-- Characters without a line break in front go to the first line. -/
theorem splitLines_append {line : List Char} (hLine : ∀ c ∈ line, isLineBreak c = false)
    {rest first : List Char} {lines : List (List Char)} (hRest : splitLines rest = first :: lines) :
    splitLines (line ++ rest) = (line ++ first) :: lines := by
  induction line with
  | nil => exact hRest
  | cons c line ih =>
      obtain ⟨hChar, hTail⟩ := List.forall_mem_cons.1 hLine
      rw [List.cons_append, splitLines_cons hChar, ih hTail]
      rfl

theorem splitLines_single {line : List Char} (hLine : ∀ c ∈ line, isLineBreak c = false)
    (hSome : line ≠ []) : splitLines line = [line] := by
  induction line with
  | nil => exact absurd rfl hSome
  | cons c line ih =>
      obtain ⟨hChar, hTail⟩ := List.forall_mem_cons.1 hLine
      rw [splitLines_cons hChar]
      by_cases hMore : line = []
      · rw [hMore]
        rfl
      · rw [ih hTail hMore]
        rfl

/-- Lines that are joined are split again, if there is something in each and no break in any. -/
theorem splitLines_joinLines {lines : List String}
    (hLines : ∀ line ∈ lines, line ≠ "" ∧ ∀ c ∈ line.toList, isLineBreak c = false) :
    splitLines (joinLines lines).toList = lines.map String.toList := by
  induction lines with
  | nil => rfl
  | cons line lines ih =>
      obtain ⟨⟨hSome, hBreaks⟩, hRest⟩ := List.forall_mem_cons.1 hLines
      by_cases hMore : lines = []
      · have hChars : line.toList ≠ [] := by simpa using hSome
        rw [hMore, joinLines, String.intercalate_singleton, splitLines_single hBreaks hChars]
        rfl
      · rw [joinLines, String.intercalate_cons_of_ne_nil hMore, String.toList_append,
          String.toList_append, List.append_assoc, List.map_cons, ← ih hRest]
        exact splitLines_lineFeed hBreaks _

/-! ### Lines that are put in -/

/-- The second text has the lines of the first one, with one more line put in at a place. -/
structure LineInserted (place : Nat) (line : List Char) (text text' : String) : Prop where
  inRange : place ≤ (splitLines text.toList).length
  lines : splitLines text'.toList =
    (splitLines text.toList).take place ++ line :: (splitLines text.toList).drop place

theorem forall_mem_consLine {p : List Char → Prop} {c : Char} {lines : List (List Char)}
    (hFirst : p [c]) (hMore : ∀ line, p line → p (c :: line)) (hLines : ∀ line ∈ lines, p line) :
    ∀ line ∈ consLine c lines, p line := by
  cases lines with
  | nil => exact List.forall_mem_singleton.2 hFirst
  | cons first rest =>
      obtain ⟨hHead, hTail⟩ := List.forall_mem_cons.1 hLines
      exact List.forall_mem_cons.2 ⟨hMore first hHead, hTail⟩

/-- No line of a text has a break in it. -/
theorem forall_mem_splitLines (text : List Char) :
    ∀ line ∈ splitLines text, ∀ c ∈ line, isLineBreak c = false := by
  fun_induction splitLines text with
  | case1 => simp
  | case2 rest ih => exact List.forall_mem_cons.2 ⟨by simp, ih⟩
  | case3 c rest _ _ ih => exact List.forall_mem_cons.2 ⟨by simp, ih⟩
  | case4 c rest _ hBreak ih =>
      have hChar : isLineBreak c = false := by simpa using hBreak
      refine forall_mem_consLine (List.forall_mem_singleton.2 hChar) (fun line hLine => ?_) ih
      exact List.forall_mem_cons.2 ⟨hChar, hLine⟩

/-- Lines that end with a line feed each are split into themselves, with no empty line behind the
last. -/
theorem splitLines_flatMap {lines : List (List Char)}
    (hLines : ∀ line ∈ lines, ∀ c ∈ line, isLineBreak c = false) :
    splitLines (lines.flatMap (· ++ ['\n'])) = lines := by
  induction lines with
  | nil => rfl
  | cons line lines ih =>
      obtain ⟨hLine, hRest⟩ := List.forall_mem_cons.1 hLines
      rw [List.flatMap_cons, List.append_assoc, List.singleton_append, splitLines_lineFeed hLine,
        ih hRest]

/-- A line that is put in has no break in it. -/
theorem LineInserted.unbroken {place : Nat} {line : List Char} {text text' : String}
    (hInserted : LineInserted place line text text') : ∀ c ∈ line, isLineBreak c = false := by
  have hMem : line ∈ splitLines text'.toList := by
    rw [hInserted.lines]
    exact List.mem_append_right _ List.mem_cons_self
  exact forall_mem_splitLines text'.toList line hMem

/-- A line can be put in at every place of every text. -/
theorem exists_lineInserted {line : List Char} (hLine : ∀ c ∈ line, isLineBreak c = false)
    (text : String) {place : Nat} (hPlace : place ≤ (splitLines text.toList).length) :
    ∃ text', LineInserted place line text text' := by
  have hText := forall_mem_splitLines text.toList
  refine ⟨String.ofList (((splitLines text.toList).take place ++
    line :: (splitLines text.toList).drop place).flatMap (· ++ ['\n'])), hPlace, ?_⟩
  rw [String.toList_ofList]
  refine splitLines_flatMap (List.forall_mem_append.2 ⟨fun other hMem => ?_, ?_⟩)
  · exact hText other (List.mem_of_mem_take hMem)
  · exact List.forall_mem_cons.2 ⟨hLine, fun other hMem => hText other (List.mem_of_mem_drop hMem)⟩

/-- Where there is no carriage return, there is no newline to be folded. -/
theorem unifyNewlines_eq_self {cs : List Char} (hPlain : '\r' ∉ cs) : unifyNewlines cs = cs := by
  fun_induction unifyNewlines cs with
  | case1 => rfl
  | case2 rest => exact absurd (List.mem_cons_self ..) hPlain
  | case3 c rest _ ih =>
      rw [List.mem_cons, not_or] at hPlain
      rw [if_neg (Ne.symm hPlain.1), ih hPlain.2]

/-! ### Trimmed texts -/

theorem trimStart_append {blanks rest : List Char} (hBlanks : ∀ c ∈ blanks, isBlank c = true) :
    trimStart (blanks ++ rest) = trimStart rest :=
  List.dropWhile_append_of_pos hBlanks

theorem trimStart_cons {c : Char} (hChar : isBlank c = false) (rest : List Char) :
    trimStart (c :: rest) = c :: rest :=
  List.dropWhile_cons_of_neg (by simp [hChar])

/-- Nothing is trimmed from the end in front of a character that is no blank. -/
theorem trimEnd_append {front rest : List Char} {last : Char} (hLast : front.getLast? = some last)
    (hChar : isBlank last = false) : trimEnd (front ++ rest) = front ++ trimEnd rest := by
  obtain ⟨start, rfl⟩ := List.getLast?_eq_some_iff.1 hLast
  have hDrop : (start ++ [last]).reverse.dropWhile isBlank = (start ++ [last]).reverse := by
    rw [List.reverse_concat]
    exact List.dropWhile_cons_of_neg (by simp [hChar])
  rw [trimEnd, trimEnd, List.reverse_append, List.dropWhile_append]
  split
  · next hEmpty =>
      rw [List.isEmpty_iff.1 hEmpty, hDrop, List.reverse_reverse, List.reverse_nil,
        List.append_nil]
  · rw [List.reverse_append, List.reverse_reverse]

theorem trimEnd_blanks {blanks : List Char} (hBlanks : ∀ c ∈ blanks, isBlank c = true) :
    trimEnd blanks = [] :=
  List.rdropWhile_eq_nil_iff.2 hBlanks

theorem trimEnd_isPrefix (text : List Char) : trimEnd text <+: text :=
  List.rdropWhile_prefix isBlank text

/-- Nothing is trimmed where no blank is at either end. -/
theorem trim_of_ends {cs : List Char} {first last : Char} (hFirst : cs.head? = some first)
    (hStart : isBlank first = false) (hLast : cs.getLast? = some last)
    (hEnd : isBlank last = false) : trim cs = cs := by
  obtain ⟨rest, rfl⟩ := List.head?_eq_some_iff.1 hFirst
  have hKept : trimEnd (first :: rest ++ []) = first :: rest ++ trimEnd [] :=
    trimEnd_append hLast hEnd
  rw [trim, trimStart_cons hStart]
  simpa [trimEnd] using hKept

/-- A text without blanks is trimmed already. -/
theorem trim_of_forall {cs : List Char} (hChars : ∀ c ∈ cs, isBlank c = false) : trim cs = cs := by
  cases hFirst : cs.head? with
  | none => rw [List.head?_eq_none_iff.1 hFirst]; rfl
  | some first =>
      have hSome : cs ≠ [] := by
        rintro rfl
        cases hFirst
      exact trim_of_ends hFirst (hChars _ (List.mem_of_mem_head? hFirst))
        (List.getLast?_eq_some_getLast hSome) (hChars _ (List.getLast_mem hSome))

theorem trim_cons_blank {c : Char} (hChar : isBlank c = true) (line : List Char) :
    trim (c :: line) = trim line := by
  rw [trim, trimStart, List.dropWhile_cons_of_pos hChar]
  rfl

theorem trim_append_blank {c : Char} (hChar : isBlank c = true) (line : List Char) :
    trim (line ++ [c]) = trim line := by
  induction line with
  | nil => exact trim_cons_blank hChar []
  | cons d line ih =>
      cases hFirst : isBlank d with
      | true => rw [List.cons_append, trim_cons_blank hFirst, trim_cons_blank hFirst, ih]
      | false =>
          rw [trim, trim, List.cons_append, trimStart_cons hFirst, trimStart_cons hFirst, trimEnd,
            ← List.cons_append, List.reverse_concat, List.dropWhile_cons_of_pos hChar, trimEnd]

/-- A text that was trimmed does not end with a blank. -/
theorem getLast?_trim {cs : List Char} (hSome : trim cs ≠ []) :
    ∃ last, (trim cs).getLast? = some last ∧ isBlank last = false := by
  have hLast : isBlank ((trim cs).getLast hSome) = false :=
    Bool.eq_false_iff.2 (List.rdropWhile_last_not isBlank (trimStart cs) hSome)
  exact ⟨(trim cs).getLast hSome, List.getLast?_eq_some_getLast hSome, hLast⟩

/-- A trimmed text ends with a character that is not blank. -/
theorem getLast?_of_trim {cs : List Char} (hTrimmed : trim cs = cs) (hSome : cs ≠ []) :
    ∃ last, cs.getLast? = some last ∧ isBlank last = false := by
  rw [← hTrimmed] at hSome ⊢
  exact getLast?_trim hSome

theorem trim_sublist (cs : List Char) : (trim cs).Sublist cs :=
  (trimEnd_isPrefix _).sublist.trans (List.dropWhile_sublist _)

theorem trim_toList {text : String} (hTrimmed : trimmed text = text) :
    trim text.toList = text.toList := by
  rw [← String.toList_ofList (l := trim text.toList)]
  exact congrArg String.toList hTrimmed

/-! ### Pieces between separators -/

/-- There is always a first piece. -/
theorem exists_splitAtChar (separator : Char) (text : List Char) :
    ∃ piece pieces, splitAtChar separator text = piece :: pieces := by
  cases text with
  | nil => exact ⟨_, _, rfl⟩
  | cons c text =>
      rw [splitAtChar]
      split
      · exact ⟨_, _, rfl⟩
      · cases splitAtChar separator text with
        | nil => exact ⟨_, _, rfl⟩
        | cons piece pieces => exact ⟨_, _, rfl⟩

/-- Pieces with separators between them again are the text. -/
theorem intercalate_splitAtChar (separator : Char) (text : List Char) :
    [separator].intercalate (splitAtChar separator text) = text := by
  induction text with
  | nil => rfl
  | cons c text ih =>
      obtain ⟨piece, pieces, hPieces⟩ := exists_splitAtChar separator text
      rw [hPieces] at ih
      rw [splitAtChar, hPieces]
      split
      · next hSeparator =>
          rw [List.intercalate_cons_cons, ih, hSeparator]
          rfl
      · cases pieces with
        | nil => simpa [consLine] using ih
        | cons next pieces =>
            rw [List.intercalate_cons_cons] at ih
            rw [consLine, List.intercalate_cons_cons, List.cons_append, List.cons_append, ih]

/-- Splitting at a character gives one piece more than the character occurs. -/
theorem length_splitAtChar (separator : Char) (text : List Char) :
    (splitAtChar separator text).length = text.count separator + 1 := by
  induction text with
  | nil => rfl
  | cons c text ih =>
      rw [splitAtChar, List.count_cons]
      split
      · next hSeparator => simp [hSeparator, ih]
      · next hOther =>
          obtain ⟨piece, pieces, hPieces⟩ := exists_splitAtChar separator text
          rw [hPieces] at ih
          simpa [hPieces, consLine, hOther] using ih

/-- Texts with a separator between them are split one after the other. -/
theorem splitAtChar_join (separator : Char) (front back : List Char) :
    splitAtChar separator (front ++ separator :: back) =
      splitAtChar separator front ++ splitAtChar separator back := by
  induction front with
  | nil => simp [splitAtChar]
  | cons c front ih =>
      rw [List.cons_append, splitAtChar, splitAtChar, ih]
      split
      · rfl
      · obtain ⟨piece, pieces, hPieces⟩ := exists_splitAtChar separator front
        rw [hPieces]
        rfl

theorem splitAtChar_single {separator : Char} {piece : List Char} (hPiece : separator ∉ piece) :
    splitAtChar separator piece = [piece] := by
  induction piece with
  | nil => rfl
  | cons c piece ih =>
      rw [List.mem_cons, not_or] at hPiece
      rw [splitAtChar, if_neg (Ne.symm hPiece.1), ih hPiece.2]
      rfl

/-- A piece without the separator is split off at the first separator behind it. -/
theorem splitAtChar_append {separator : Char} {piece : List Char} (hPiece : separator ∉ piece)
    (rest : List Char) :
    splitAtChar separator (piece ++ separator :: rest) = piece :: splitAtChar separator rest := by
  rw [splitAtChar_join, splitAtChar_single hPiece, List.singleton_append]

theorem notMem_of_mem_splitAtChar {separator : Char} {text piece : List Char}
    (hPiece : piece ∈ splitAtChar separator text) : separator ∉ piece := by
  induction text generalizing piece with
  | nil =>
      rw [splitAtChar, List.mem_singleton] at hPiece
      rw [hPiece]
      exact List.not_mem_nil
  | cons c text ih =>
      rw [splitAtChar] at hPiece
      split at hPiece
      · rcases List.mem_cons.1 hPiece with rfl | hLater
        · exact List.not_mem_nil
        · exact ih hLater
      · next hOther =>
          cases hSplit : splitAtChar separator text with
          | nil =>
              rw [hSplit, consLine, List.mem_singleton] at hPiece
              rw [hPiece]
              exact fun hMem => hOther (List.mem_singleton.1 hMem).symm
          | cons first pieces =>
              rw [hSplit] at ih
              rw [hSplit, consLine] at hPiece
              rcases List.mem_cons.1 hPiece with rfl | hLater
              · rw [List.mem_cons, not_or]
                exact ⟨Ne.symm hOther, ih List.mem_cons_self⟩
              · exact ih (List.mem_cons_of_mem _ hLater)

/-- A text has two pieces if the separator is in it just once, between them. -/
theorem splitAtChar_eq_pair_iff {separator : Char} {text front back : List Char} :
    splitAtChar separator text = [front, back] ↔
      text = front ++ separator :: back ∧ separator ∉ front ∧ separator ∉ back := by
  constructor
  · intro hPieces
    have hPiece : ∀ piece ∈ [front, back], separator ∉ piece := fun piece hMem =>
      notMem_of_mem_splitAtChar (hPieces ▸ hMem)
    refine ⟨?_, hPiece front (by simp), hPiece back (by simp)⟩
    rw [← intercalate_splitAtChar separator text, hPieces]
    simp [List.intercalate]
  · rintro ⟨rfl, hFront, hBack⟩
    rw [splitAtChar_append hFront, splitAtChar_single hBack]

/-- A text of pieces with separators between them is split into the pieces. -/
theorem splitAtChar_intercalate {separator : Char} {pieces : List String} (hSome : pieces ≠ [])
    (hPieces : ∀ piece ∈ pieces, separator ∉ piece.toList) :
    splitAtChar separator ((String.singleton separator).intercalate pieces).toList =
      pieces.map String.toList := by
  induction pieces with
  | nil => exact absurd rfl hSome
  | cons piece pieces ih =>
      obtain ⟨hFirst, hMore⟩ := List.forall_mem_cons.1 hPieces
      by_cases hNone : pieces = []
      · rw [hNone]
        simpa using splitAtChar_single hFirst
      · rw [String.intercalate_cons_of_ne_nil hNone, String.toList_append, String.toList_append,
          String.toList_singleton, List.append_assoc, List.singleton_append, splitAtChar_append hFirst,
          ih hNone hMore, List.map_cons]

end QuestScript.Text

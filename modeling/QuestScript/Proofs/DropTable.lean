import QuestScript.DropTable
import QuestScript.Proofs.Except
import QuestScript.Proofs.Number.Fractional
import QuestScript.Proofs.Number.Limit
import QuestScript.Proofs.Table
import QuestScript.Proofs.Text.Lines
import Mathlib.Data.List.Forall2
/-!
A drop table is read back from its text: every item of every character, in the order of the items
and with the characters in increasing order. Characters without drops are left out. A table has no text
just if one of the integers that would be in it has too many digits.
-/

namespace QuestScript

open QuestScript.Text

/-- Whether a percentage is a finite floating-point number, or an integer equal to one. -/
def Number.IsFinite : Number → Prop
  | .int n => ∃ x : Binary64, x.IsCanonical ∧ x.toInt? = some n
  | .float x => x.IsCanonical

/-- Whether two drops are the same, their percentages as numbers. -/
structure Drop.SameAs (left right : Drop) : Prop where
  item : left.item = right.item
  least : left.least = right.least
  most : left.most = right.most
  percentage : left.percentage.sameValue right.percentage = true

/-- Whether the integers of a drop have few enough digits. -/
structure Drop.Fits (drop : Drop) : Prop where
  item : Integer.fits drop.item = true
  least : Integer.fits drop.least = true
  most : Integer.fits drop.most = true

/-- A drop fits when none of its three integers has too many digits to be printed. -/
theorem Drop.fits_iff {drop : Drop} :
    [drop.item, drop.least, drop.most].findSome? Integer.textFault? = none ↔ drop.Fits := by
  simp only [List.findSome?_eq_none_iff, List.forall_mem_cons, List.not_mem_nil, false_imp_iff,
    implies_true, and_true, Integer.textFault?_eq_none_iff]
  exact ⟨fun ⟨hItem, hLeast, hMost⟩ => ⟨hItem, hLeast, hMost⟩,
    fun hFits => ⟨hFits.item, hFits.least, hFits.most⟩⟩

namespace DropTable

open QuestScript.Fractional (isNumeral isNumeral_of_isDigit)

/-! ### Fields -/

theorem isBlank_of_isNumeral {c : Char} (hNumeral : isNumeral c = true) : isBlank c = false := by
  simp only [isNumeral, Bool.or_eq_true, decide_eq_true_eq] at hNumeral
  rcases hNumeral with (((hDigit | rfl) | rfl) | rfl) | rfl
  · exact Integer.isBlank_of_isDigit hDigit
  · decide
  · decide
  · decide
  · decide

/-- Whether a text is a field of a drop, without a blank and without a mark that ends it. -/
structure IsField (field : List Char) : Prop where
  some : field ≠ []
  chars : ∀ c ∈ field, isNumeral c = true

theorem isField_toString (n : Int) : IsField (toString n).toList := by
  obtain ⟨c, rest, hDigits, hAll⟩ := Integer.toDigits_shape n.natAbs
  rw [Integer.toList_toString, hDigits]
  refine ⟨by simp, List.forall_mem_append.2
    ⟨?_, fun d hMem => isNumeral_of_isDigit (hAll d hMem)⟩⟩
  split <;> exact List.all_eq_true.1 rfl

/-- The text of a finite percentage is read as a number of its value. -/
theorem printPercentage?_finite {percentage : Number} (hFinite : percentage.IsFinite) :
    ∃ text x, printPercentage? percentage = some text ∧
      IsField text.toList ∧ Fractional.leading? text.toList = some x ∧
      (Number.float x).sameValue percentage = true := by
  cases percentage with
  | int n =>
      obtain ⟨x, hCanonical, hInt⟩ := hFinite
      obtain ⟨y, hReads, -, hSame, hOfInt⟩ := Binary64.leading?_toString_of_toInt? hCanonical hInt
      refine ⟨toString n, y, ?_, isField_toString n, hReads, by simp [Number.sameValue, hSame]⟩
      rw [printPercentage?, hOfInt]
      rfl
  | float x =>
      cases hInt : x.toInt? with
      | some n =>
          obtain ⟨y, hReads, hSame, -, -⟩ := Binary64.leading?_toString_of_toInt? hFinite hInt
          exact ⟨toString n, y, by simp only [printPercentage?, hInt], isField_toString n, hReads,
            hSame⟩
      | none =>
          have hReads := Binary64.leading?_text hFinite
          refine ⟨x.text, x, by simp only [printPercentage?, hInt],
            ⟨?_, Binary64.isNumeral_text hFinite⟩, hReads, Binary64.sameValue_refl x⟩
          intro hEmpty
          rw [hEmpty] at hReads
          cases hReads

/-- Whether a text is four fields that are read as a drop. -/
def Describes (text : List Char) (drop : Drop) : Prop :=
  ∃ item least most percentage,
    text = item ++ ',' :: (least ++ ',' :: (most ++ ',' :: percentage)) ∧
    (∀ field ∈ [item, least, most, percentage], IsField field) ∧
    [item, least, most].findSome? Integer.leadingFault? = none ∧
    readDrop? item least most percentage = some drop

/-- A drop with a finite percentage is written if its integers have few enough digits, and is then
read back. -/
theorem writeDrop_finite {drop : Drop} (hFinite : drop.percentage.IsFinite) (hFits : drop.Fits) :
    ∃ text read, writeDrop drop = .ok text ∧ Describes text.toList read ∧ read.SameAs drop := by
  obtain ⟨text, x, hText, hField, hReads, hSame⟩ := printPercentage?_finite hFinite
  have hFault := Drop.fits_iff.2 hFits
  have hWrite : writeDrop drop = .ok (",".intercalate
      [toString drop.item, toString drop.least, toString drop.most, text]) := by
    unfold writeDrop
    simp only [hFault, hText]
  refine ⟨_, ⟨drop.item, drop.least, drop.most, .float x⟩, hWrite, ?_, ⟨rfl, rfl, rfl, hSame⟩⟩
  refine ⟨(toString drop.item).toList, (toString drop.least).toList, (toString drop.most).toList,
    text.toList, ?_, ?_, ?_, ?_⟩
  · simp [String.intercalate_cons_of_ne_nil, String.intercalate_singleton]
  · simp only [List.forall_mem_cons, List.not_mem_nil, false_imp_iff, implies_true, and_true]
    exact ⟨isField_toString _, isField_toString _, isField_toString _, hField⟩
  · simp only [List.findSome?_eq_none_iff, List.forall_mem_cons, List.not_mem_nil, false_imp_iff,
      implies_true, and_true, Integer.leadingFault?_toString_eq_none_iff]
    exact ⟨hFits.item, hFits.least, hFits.most⟩
  · simp only [readDrop?, Integer.leading?_toString, hReads]
    rfl

/-- A drop that does not fit is refused with the fault of its first integer that is too long. -/
theorem writeDrop_eq_error {drop : Drop} (hLong : ¬drop.Fits) :
    ∃ fault, writeDrop drop = .error (.oversize fault) := by
  rw [← Drop.fits_iff] at hLong
  obtain ⟨fault, hFault⟩ := Option.ne_none_iff_exists'.1 hLong
  refine ⟨fault, ?_⟩
  unfold writeDrop
  simp only [hFault]

/-! ### Lists of drops -/

theorem IsField.notMem {field : List Char} (hField : IsField field) {d : Char}
    (hOther : isNumeral d = false) : d ∉ field := by
  intro hMem
  rw [hField.chars d hMem] at hOther
  cases hOther

theorem IsField.trim_eq {field : List Char} (hField : IsField field) : trim field = field :=
  trim_of_forall fun c hMem => isBlank_of_isNumeral (hField.chars c hMem)

def fields (text : List Char) : List (List Char) := (splitAtChar ',' text).map trim

/-- A field without commas or margins is read as one field. -/
theorem IsField.fields_eq {field : List Char} (hField : IsField field) : fields field = [field] := by
  rw [fields, splitAtChar_single (hField.notMem (by decide)), List.map_singleton,
    hField.trim_eq]

/-- A comma behind a field ends it, and the fields behind the comma are read on their own. -/
theorem IsField.fields_append {field : List Char} (hField : IsField field) (rest : List Char) :
    fields (field ++ ',' :: rest) = field :: fields rest := by
  rw [fields, splitAtChar_append (hField.notMem (by decide)), List.map_cons, hField.trim_eq]
  rfl

/-- A blank in front of the first field does not count. -/
theorem fields_blank (text : List Char) : fields (' ' :: text) = fields text := by
  obtain ⟨piece, pieces, hPieces⟩ := exists_splitAtChar ',' text
  rw [fields, splitAtChar, if_neg (by decide), fields, hPieces, consLine, List.map_cons,
    trim_cons_blank (by decide), List.map_cons]

/-- Whether fields are read as drops, without an integer that has too many digits. -/
def ReadsDrops (fields : List (List Char)) (drops : List Drop) : Prop :=
  readDrops fields = drops ∧ dropsFault? fields = none

/-- A group of four fields is one drop, and the fields behind it are read on their own. -/
theorem ReadsDrops.fields {item least most percentage : List Char} {rest : List (List Char)}
    {drop : Drop} {drops : List Drop}
    (hFits : [item, least, most].findSome? Integer.leadingFault? = none)
    (hRead : readDrop? item least most percentage = some drop) (hRest : ReadsDrops rest drops) :
    ReadsDrops (item :: least :: most :: percentage :: rest) (drop :: drops) := by
  constructor
  · rw [readDrops, hRead, hRest.1]
    rfl
  · rw [dropsFault?, hFits, hRest.2]
    rfl

/-- Drops that are joined are read one after the other. -/
theorem readsDrops_intercalate {texts : List String} {drops : List Drop}
    (hTexts : List.Forall₂ (fun text drop => Describes text.toList drop) texts drops) :
    ReadsDrops (fields (", ".intercalate texts).toList) drops := by
  induction hTexts with
  | nil => exact ⟨rfl, rfl⟩
  | @cons text drop texts drops hText hRest ih =>
      obtain ⟨item, least, most, percentage, hJoined, hFields, hFits, hRead⟩ := hText
      simp only [List.forall_mem_cons, List.not_mem_nil, false_imp_iff, implies_true, and_true]
        at hFields
      obtain ⟨hItem, hLeast, hMost, hPercentage⟩ := hFields
      by_cases hMore : texts = []
      · subst hMore
        cases hRest
        rw [String.intercalate_singleton, hJoined, hItem.fields_append, hLeast.fields_append,
          hMost.fields_append, hPercentage.fields_eq]
        exact .fields hFits hRead ⟨rfl, rfl⟩
      · rw [String.intercalate_cons_of_ne_nil hMore, String.toList_append, String.toList_append,
          hJoined]
        simp only [List.append_assoc, List.cons_append]
        change ReadsDrops (DropTable.fields (item ++ ',' :: (least ++ ',' :: (most ++ ',' ::
          (percentage ++ ',' :: ' ' :: (", ".intercalate texts).toList))))) _
        rw [hItem.fields_append, hLeast.fields_append, hMost.fields_append,
          hPercentage.fields_append, fields_blank]
        exact .fields hFits hRead ih

/-! ### Lines -/

/-- Whether a text can stand on a side of a line: no mark in it that ends the side or the line, and
no blank at either end. -/
structure IsRow (row : List Char) : Prop where
  chars : ∀ c ∈ row, isNumeral c = true ∨ c = ',' ∨ c = ' '
  first : ∃ c, row.head? = some c ∧ isNumeral c = true
  last : ∃ c, row.getLast? = some c ∧ isNumeral c = true

theorem IsField.isRow {field : List Char} (hField : IsField field) : IsRow field where
  chars := fun c hMem => Or.inl (hField.chars c hMem)
  first := ⟨_, List.head?_eq_some_head hField.some, hField.chars _ (List.head_mem hField.some)⟩
  last := ⟨_, List.getLast?_eq_some_getLast hField.some,
    hField.chars _ (List.getLast_mem hField.some)⟩

/-- Rows joined by commas and blanks are rows, so a whole line keeps to the characters of its
fields. -/
theorem IsRow.append {front marks back : List Char} (hFront : IsRow front) (hBack : IsRow back)
    (hMarks : ∀ c ∈ marks, c = ',' ∨ c = ' ') : IsRow (front ++ (marks ++ back)) where
  chars := List.forall_mem_append.2 ⟨hFront.chars, List.forall_mem_append.2
    ⟨fun c hMem => Or.inr (hMarks c hMem), hBack.chars⟩⟩
  first := by
    obtain ⟨c, hHead, hNumeral⟩ := hFront.first
    exact ⟨c, by rw [List.head?_append, hHead, Option.some_or], hNumeral⟩
  last := by
    obtain ⟨c, hLast, hNumeral⟩ := hBack.last
    refine ⟨c, ?_, hNumeral⟩
    rw [List.getLast?_append, List.getLast?_append, hLast, Option.some_or, Option.some_or]

/-- The text of a drop holds numerals, commas and blanks only, hence neither an equals sign nor a
comment sign. -/
theorem Describes.isRow {text : List Char} {drop : Drop} (hText : Describes text drop) :
    IsRow text := by
  obtain ⟨item, least, most, percentage, rfl, hFields, -⟩ := hText
  simp only [List.forall_mem_cons, List.not_mem_nil, false_imp_iff, implies_true, and_true]
    at hFields
  obtain ⟨hItem, hLeast, hMost, hPercentage⟩ := hFields
  have hComma : ∀ c ∈ [','], c = ',' ∨ c = ' ' := by simp
  exact hItem.isRow.append (hLeast.isRow.append (hMost.isRow.append hPercentage.isRow hComma)
    hComma) hComma

theorem isRow_intercalate {texts : List String} {drops : List Drop}
    (hTexts : List.Forall₂ (fun text drop => Describes text.toList drop) texts drops)
    (hSome : texts ≠ []) : IsRow (", ".intercalate texts).toList := by
  induction hTexts with
  | nil => exact absurd rfl hSome
  | @cons text drop texts drops hText hRest ih =>
      by_cases hMore : texts = []
      · rw [hMore, String.intercalate_singleton]
        exact hText.isRow
      · rw [String.intercalate_cons_of_ne_nil hMore, String.toList_append, String.toList_append,
          List.append_assoc]
        exact hText.isRow.append (ih hMore) (by simp)

/-- A row starts and ends with a numeral, so trimming it changes nothing. -/
theorem IsRow.trim_eq {row : List Char} (hRow : IsRow row) : trim row = row := by
  obtain ⟨first, hHead, hFirst⟩ := hRow.first
  obtain ⟨last, hLast, hEnd⟩ := hRow.last
  exact trim_of_ends hHead (isBlank_of_isNumeral hFirst) hLast (isBlank_of_isNumeral hEnd)

theorem IsRow.notMem {row : List Char} (hRow : IsRow row) {d : Char} (hOther : isNumeral d = false)
    (hMark : d ≠ ',' ∧ d ≠ ' ') : d ∉ row := by
  intro hMem
  rcases hRow.chars d hMem with hNumeral | hComma | hSpace
  · rw [hNumeral] at hOther
    cases hOther
  · exact hMark.1 hComma
  · exact hMark.2 hSpace

/-- Whether a line is read as an entry, or as none, without an integer that has too many digits. -/
def ReadsLine (line : List Char) (found? : Option (Int × List Drop)) : Prop :=
  readLine? line = found? ∧ lineFault? line = none

/-- A line with a number on its left and drops on its right. -/
theorem readsLine_row {npc : Int} (hNpc : Integer.fits npc = true) {row : List Char}
    (hRow : IsRow row) {drops : List Drop} (hSome : drops ≠ [])
    (hReads : ReadsDrops (fields row) drops) :
    ReadsLine ((toString npc).toList ++ (' ' :: '=' :: ' ' :: row)) (some (npc, drops)) := by
  have hNumber := isField_toString npc
  obtain ⟨first, hHead, hFirst⟩ := hNumber.isRow.first
  obtain ⟨last, hLast, hEnd⟩ := hRow.last
  have hLineHead : ((toString npc).toList ++ (' ' :: '=' :: ' ' :: row)).head? = some first := by
    rw [List.head?_append, hHead, Option.some_or]
  have hTrim : trim ((toString npc).toList ++ (' ' :: '=' :: ' ' :: row)) =
      (toString npc).toList ++ (' ' :: '=' :: ' ' :: row) := by
    refine trim_of_ends hLineHead (isBlank_of_isNumeral hFirst) ?_ (isBlank_of_isNumeral hEnd)
    have hWhole : ((toString npc).toList ++ [' ', '=', ' '] ++ row).getLast? = some last := by
      rw [List.getLast?_append, hLast, Option.some_or]
    simpa using hWhole
  have hSides : splitAtChar '=' ((toString npc).toList ++ (' ' :: '=' :: ' ' :: row)) =
      [(toString npc).toList ++ [' '], ' ' :: row] := by
    have hLeft : '=' ∉ (toString npc).toList ++ [' '] := by
      simpa using hNumber.notMem (d := '=') (by decide)
    have hRight : '=' ∉ ' ' :: row := by
      simpa using hRow.notMem (d := '=') (by decide) (by decide)
    rw [List.append_cons, splitAtChar_append hLeft, splitAtChar_single hRight]
  have hFirst' : first ≠ '#' := by
    rintro rfl
    exact absurd hFirst (by decide)
  obtain ⟨hRead, hFault⟩ := hReads
  rw [fields] at hRead hFault
  constructor
  · rw [readLine?]
    simp only [hTrim, hLineHead, hSides]
    rw [if_neg (by simp [hFirst'])]
    simp only [trim_append_blank (show isBlank ' ' = true by decide), hNumber.trim_eq,
      trim_cons_blank (show isBlank ' ' = true by decide), hRow.trim_eq, Integer.leading?_toString,
      hRead]
    simp [hSome]
  · rw [lineFault?]
    simp only [hTrim, hLineHead, hSides]
    rw [if_neg (by simp [hFirst'])]
    simp only [trim_append_blank (show isBlank ' ' = true by decide), hNumber.trim_eq,
      trim_cons_blank (show isBlank ' ' = true by decide), hRow.trim_eq, Integer.leading?_toString,
      Integer.leadingFault?_toString_eq_none_iff.2 hNpc, hFault, Option.none_or]

/-! ### Tables -/

/-- What holds of each item and its result holds along the lists of both. -/
theorem exists_mapM {ε α β γ : Type} {f : α → Except ε β} {r : β → γ → Prop} {q : γ → α → Prop}
    {items : List α} (hItems : ∀ item ∈ items, ∃ result value, f item = .ok result ∧
      r result value ∧ q value item) :
    ∃ results values, items.mapM f = .ok results ∧ List.Forall₂ r results values ∧
      List.Forall₂ q values items := by
  induction items with
  | nil => exact ⟨[], [], rfl, .nil, .nil⟩
  | cons item items ih =>
      obtain ⟨hItem, hRest⟩ := List.forall_mem_cons.1 hItems
      obtain ⟨result, value, hResult, hHolds, hValue⟩ := hItem
      obtain ⟨results, values, hResults, hAll, hValues⟩ := ih hRest
      refine ⟨result :: results, value :: values, ?_, .cons hHolds hAll, .cons hValue hValues⟩
      rw [List.mapM_cons, hResult, hResults]
      rfl

/-- Whether an entry has the number and the drops of another one. -/
def SameEntry (left right : Int × List Drop) : Prop :=
  left.1 = right.1 ∧ List.Forall₂ Drop.SameAs left.2 right.2

/-- Whether a text is a line that is read as an entry. -/
def IsLine (line : String) (entry : Int × List Drop) : Prop :=
  ∃ content, line.toList = content ++ ['\n'] ∧ '\n' ∉ content ∧ ReadsLine content (some entry)

/-- Whether the integers of an entry have few enough digits. -/
def EntryFits (entry : Int × List Drop) : Prop :=
  Integer.fits entry.1 = true ∧ ∀ drop ∈ entry.2, drop.Fits

/-- An entry of finite drops that fit has a line, and that line is read as the same entry up to
what the text of a percentage keeps. -/
theorem writeLine_finite {entry : Int × List Drop}
    (hFinite : ∀ drop ∈ entry.2, drop.percentage.IsFinite) (hFits : EntryFits entry)
    (hSome : entry.2 ≠ []) :
    ∃ line read, writeLine entry = .ok line ∧ IsLine line read ∧ SameEntry read entry := by
  obtain ⟨texts, drops, hTexts, hDescribes, hSame⟩ :=
    exists_mapM fun drop hMem => writeDrop_finite (hFinite drop hMem) (hFits.2 drop hMem)
  have hDrops : drops ≠ [] := by
    rintro rfl
    exact hSome (List.forall₂_nil_left_iff.1 hSame)
  have hTextsSome : texts ≠ [] := by
    rintro rfl
    exact hDrops (List.forall₂_nil_left_iff.1 hDescribes)
  have hRow := isRow_intercalate hDescribes hTextsSome
  have hLine := readsLine_row hFits.1 hRow hDrops (readsDrops_intercalate hDescribes)
  have hWrite : writeLine entry =
      .ok (toString entry.1 ++ " = " ++ ", ".intercalate texts ++ "\n") := by
    rw [writeLine, hTexts, Integer.textFault?_eq_none_iff.2 hFits.1]
    rfl
  refine ⟨_, (entry.1, drops), hWrite, ⟨_, ?_, ?_, hLine⟩, rfl, hSame⟩
  · simp only [String.toList_append, List.append_assoc]
    rfl
  · have hNumber := (isField_toString entry.1).notMem (d := '\n') (by decide)
    have hRest := hRow.notMem (d := '\n') (by decide) (by decide)
    simp only [List.mem_append, List.mem_cons, not_or]
    exact ⟨hNumber, by decide, by decide, by decide, hRest⟩

/-- Whether a text is read as these entries, without an integer that has too many digits. -/
def Reads (text : List Char) (entries : List (Int × List Drop)) : Prop :=
  readEntries text = entries ∧ textFault? text = none

/-- A line in front of a text adds its entry, if it has one. -/
theorem Reads.line {line rest : List Char} {found? : Option (Int × List Drop)}
    {entries : List (Int × List Drop)} (hBreak : '\n' ∉ line) (hLine : ReadsLine line found?)
    (hRest : Reads rest entries) : Reads (line ++ '\n' :: rest) (found?.toList ++ entries) := by
  constructor
  · rw [readEntries, splitAtChar_append hBreak, List.filterMap_cons, ← readEntries, hRest.1, hLine.1]
    cases found? <;> rfl
  · rw [textFault?, splitAtChar_append hBreak, List.findSome?_cons, hLine.2, ← textFault?, hRest.2]

theorem reads_nil : Reads [] [] := ⟨rfl, rfl⟩

/-- Lines that are each read as one entry are read as those entries in their order. -/
theorem reads_lines {lines : List String} {entries : List (Int × List Drop)}
    (hLines : List.Forall₂ IsLine lines entries) :
    Reads (String.join lines).toList entries := by
  rw [String.toList_join]
  induction hLines with
  | nil => exact reads_nil
  | cons hLine _ ih =>
      obtain ⟨content, hText, hContent, hRead⟩ := hLine
      rw [List.flatMap_cons, hText, List.append_assoc, List.singleton_append]
      exact .line hContent hRead ih

theorem readsLine_comment (comment : List Char) : ReadsLine ('#' :: comment) none := by
  have hHead : (trim ('#' :: comment)).head? = some '#' := by
    have hFirst : (['#'] : List Char).getLast? = some '#' := rfl
    rw [trim, trimStart_cons (by decide), ← List.singleton_append,
      trimEnd_append hFirst (by decide)]
    rfl
  constructor
  · rw [readLine?]
    simp only [hHead]
    rw [if_pos (by simp)]
  · rw [lineFault?]
    simp only [hHead]
    rw [if_pos (by simp)]

/-- A line of comment says nothing. Its characters are given apart from the line, since taking a
long string apart by computation is slow. -/
theorem Reads.comment {line : String} {cs : List Char} (hText : line = String.ofList cs)
    (hComment : cs.dropLast.head? = some '#' ∧ cs.getLast? = some '\n' ∧ '\n' ∉ cs.dropLast)
    {rest : List Char} {entries : List (Int × List Drop)} (hRest : Reads rest entries) :
    Reads (line.toList ++ rest) entries := by
  obtain ⟨hHead, hLast, hLine⟩ := hComment
  obtain ⟨comment, hFront⟩ := List.head?_eq_some_iff.1 hHead
  have hReads : ReadsLine cs.dropLast none := hFront ▸ readsLine_comment comment
  rw [hText, String.toList_ofList, ← List.dropLast_append_getLast? '\n' hLast, List.append_assoc,
    List.singleton_append]
  exact .line hLine hReads hRest

/-- The header is made of comment lines and an empty one, which give no entries and no faults. -/
theorem reads_header {rest : List Char} {entries : List (Int × List Drop)}
    (hRest : Reads rest entries) : Reads (header.toList ++ rest) entries := by
  have hLines : header.toList ++ rest = "# NPC Drop Table Configuration\n".toList ++
      ("# Format: npc_id = item_id,min,max,percentage, item_id,min,max,percentage, ...\n".toList ++
        ("# Percentage is 0-100 (supports decimals like 0.5)\n".toList ++ ([] ++ '\n' :: rest))) := by
    unfold header
    rw [String.toList_append, String.toList_append, String.toList_append, List.append_assoc,
      List.append_assoc, List.append_assoc]
    rfl
  have hBlank : Reads ([] ++ '\n' :: rest) entries := .line List.not_mem_nil ⟨rfl, rfl⟩ hRest
  rw [hLines]
  exact .comment rfl (by decide) (.comment rfl (by decide) (.comment rfl (by decide) hBlank))

/-- The entries that are written: those with drops, by increasing number. -/
theorem sortedEntries_spec (table : DropTable) :
    table.sortedEntries.Perm (table.entries.filter fun entry => !entry.2.isEmpty) ∧
      table.sortedEntries.Pairwise fun left right => left.1 < right.1 := by
  have hPerm : table.sortedEntries.Perm (table.entries.filter fun entry => !entry.2.isEmpty) :=
    List.mergeSort_perm _ _
  have hSorted : table.sortedEntries.Pairwise fun left right =>
      decide (left.1 ≤ right.1) = true := by
    refine List.pairwise_mergeSort (fun a b c => ?_) (fun a b => ?_) _
    · simpa using le_trans
    · simpa using le_total a.1 b.1
  have hDistinct : (table.sortedEntries.map Prod.fst).Nodup :=
    (hPerm.map Prod.fst).nodup_iff.2 ((List.filter_sublist.map Prod.fst).nodup table.distinct)
  refine ⟨hPerm, (hSorted.and (List.pairwise_map.1 hDistinct)).imp fun h => ?_⟩
  exact lt_of_le_of_ne (of_decide_eq_true h.1) h.2

/-- Entries that are the same up to their percentages stand under the same keys. -/
theorem keys_of_sameEntry {left right : List (Int × List Drop)}
    (hSame : List.Forall₂ SameEntry left right) : left.map Prod.fst = right.map Prod.fst := by
  induction hSame with
  | nil => rfl
  | cons hEntry _ ih => rw [List.map_cons, List.map_cons, hEntry.1, ih]

/-- Whether every integer that is in the text of a table has few enough digits. -/
def Fits (table : DropTable) : Prop := ∀ entry ∈ table.entries, entry.2 ≠ [] → EntryFits entry

/-- The printed entries are those with a drop, in the order of their keys. -/
theorem mem_sortedEntries {table : DropTable} {entry : Int × List Drop} :
    entry ∈ table.sortedEntries ↔ entry ∈ table.entries ∧ entry.2 ≠ [] := by
  rw [(sortedEntries_spec table).1.mem_iff, List.mem_filter]
  simp

/-- Where each item is written or has too many digits, so it is with all of them. -/
theorem mapM_eq_oversize {α : Type} {write : α → Except PrintFault String} {fits : α → Prop}
    {items : List α} (hOk : ∀ item ∈ items, fits item → ∃ text, write item = .ok text)
    (hError : ∀ item ∈ items, ¬fits item → ∃ fault, write item = .error (.oversize fault))
    (hLong : ¬∀ item ∈ items, fits item) : ∃ fault, items.mapM write = .error (.oversize fault) := by
  push Not at hLong
  obtain ⟨item, hMem, hItem⟩ := hLong
  obtain ⟨fault, hFault⟩ := hError item hMem hItem
  obtain ⟨first, hFirst, culprit, hCulprit, hWrite⟩ := mapM_eq_error write hMem hFault
  by_cases hFits : fits culprit
  · obtain ⟨text, hText⟩ := hOk culprit hCulprit hFits
    rw [hText] at hWrite
    cases hWrite
  · obtain ⟨other, hOther⟩ := hError culprit hCulprit hFits
    rw [hOther] at hWrite
    cases hWrite
    exact ⟨other, hFirst⟩

/-- An entry with an integer of too many digits is not written. The drops come before the number. -/
theorem writeLine_eq_error {entry : Int × List Drop}
    (hFinite : ∀ drop ∈ entry.2, drop.percentage.IsFinite) (hLong : ¬EntryFits entry) :
    ∃ fault, writeLine entry = .error (.oversize fault) := by
  rw [writeLine]
  have hWritten : ∀ drop ∈ entry.2, drop.Fits → ∃ text, writeDrop drop = .ok text :=
    fun drop hMem hFits => (writeDrop_finite (hFinite drop hMem) hFits).imp fun _ h => h.choose_spec.1
  by_cases hDrops : ∀ drop ∈ entry.2, drop.Fits
  · obtain ⟨texts, drops, hTexts, -⟩ :=
      exists_mapM fun drop hMem => writeDrop_finite (hFinite drop hMem) (hDrops drop hMem)
    have hNpc : ¬Integer.textFault? entry.1 = none :=
      fun hNone => hLong ⟨Integer.textFault?_eq_none_iff.1 hNone, hDrops⟩
    obtain ⟨fault, hFault⟩ := Option.ne_none_iff_exists'.1 hNpc
    exact ⟨fault, by rw [hTexts, hFault]; rfl⟩
  · obtain ⟨fault, hFault⟩ :=
      mapM_eq_oversize hWritten (fun drop _ => writeDrop_eq_error) hDrops
    exact ⟨fault, by rw [hFault]; rfl⟩

/-- A table with an integer of too many digits in its text has none. -/
theorem write_eq_error {table : DropTable}
    (hFinite : ∀ entry ∈ table.entries, ∀ drop ∈ entry.2, drop.percentage.IsFinite)
    (hLong : ¬table.Fits) : ∃ fault, table.write = .error (.oversize fault) := by
  have hOk : ∀ entry ∈ table.sortedEntries, EntryFits entry → ∃ line, writeLine entry = .ok line := by
    intro entry hMem hFits
    obtain ⟨hEntry, hSome⟩ := mem_sortedEntries.1 hMem
    obtain ⟨line, -, hLine, -⟩ := writeLine_finite (hFinite entry hEntry) hFits hSome
    exact ⟨line, hLine⟩
  have hError : ∀ entry ∈ table.sortedEntries, ¬EntryFits entry →
      ∃ fault, writeLine entry = .error (.oversize fault) := fun entry hMem =>
    writeLine_eq_error (hFinite entry (mem_sortedEntries.1 hMem).1)
  have hSome : ¬∀ entry ∈ table.sortedEntries, EntryFits entry := fun hAll =>
    hLong fun entry hMem hDrops => hAll entry (mem_sortedEntries.2 ⟨hMem, hDrops⟩)
  obtain ⟨fault, hFault⟩ := mapM_eq_oversize hOk hError hSome
  exact ⟨fault, by rw [write, hFault]; rfl⟩

/-- A table is read back from its text, with its drops in their order, and with the numbers that have
drops in increasing order. It has a text exactly if no integer in that has too many digits. -/
theorem parse_write_drops {table : DropTable}
    (hFinite : ∀ entry ∈ table.entries, ∀ drop ∈ entry.2, drop.percentage.IsFinite) :
    (table.Fits → ∃ text entries read, table.write = .ok text ∧
      entries.Perm (table.entries.filter fun entry => !entry.2.isEmpty) ∧
      (entries.Pairwise fun left right => left.1 < right.1) ∧
      parse text = .ok read ∧ List.Forall₂ SameEntry read.entries entries) ∧
    (¬table.Fits → ∃ fault, table.write = .error (.oversize fault)) := by
  refine ⟨fun hFits => ?_, write_eq_error hFinite⟩
  obtain ⟨hPerm, hIncreasing⟩ := sortedEntries_spec table
  obtain ⟨lines, read, hLines, hRead, hSame⟩ := exists_mapM fun entry hMem =>
    have hEntry := mem_sortedEntries.1 hMem
    writeLine_finite (hFinite entry hEntry.1) (hFits entry hEntry.1 hEntry.2) hEntry.2
  have hKeys : (read.map Prod.fst).Nodup := by
    rw [keys_of_sameEntry hSame]
    exact (List.pairwise_map.2 (hIncreasing.imp ne_of_lt))
  have hWrite : table.write = .ok (header ++ String.join lines) := by
    rw [write, hLines]
    rfl
  obtain ⟨hEntries, hFault⟩ := reads_header (reads_lines hRead)
  have hParse : parse (header ++ String.join lines) = .ok (Table.ofList read) := by
    rw [parse, String.toList_append, hFault, hEntries, Integer.guarded_none]
  have hOfList : (Table.ofList read).entries = read := by
    rw [Table.ofList, Table.foldl_put read Table.empty hKeys]
    rfl
  exact ⟨_, table.sortedEntries, _, hWrite, hPerm, hIncreasing, hParse, hOfList.symm ▸ hSame⟩

/-- Half a percent, fifty percent and none: a fraction, an integer, and a zero with a sign. -/
theorem parse_write_drops_sample :
    ∃ text entries read,
      write ⟨[(7, [⟨1, 2, 3, .float (.finite false (twoPow 52) (-53))⟩, ⟨-4, 0, 9, .int 50⟩]),
        (5, []), (-3, [⟨6, 1, 1, .float (Binary64.zero true)⟩])], by decide⟩ = .ok text ∧
      entries.Perm [(7, [⟨1, 2, 3, .float (.finite false (twoPow 52) (-53))⟩, ⟨-4, 0, 9, .int 50⟩]),
        (-3, [⟨6, 1, 1, .float (Binary64.zero true)⟩])] ∧
      (entries.Pairwise fun left right => left.1 < right.1) ∧
      parse text = .ok read ∧ List.Forall₂ SameEntry read.entries entries := by
  have hHalf : Binary64.IsCanonical (.finite false (twoPow 52) (-53)) :=
    ⟨by decide, by decide, by decide, Or.inl le_rfl⟩
  have hFifty : (Number.int 50).IsFinite :=
    ⟨.finite false (50 * twoPow 47) (-47),
      ⟨by decide, by decide, by decide, Or.inl (by decide)⟩, by decide⟩
  have hZero : (Binary64.zero true).IsCanonical :=
    ⟨by decide, by decide, by decide, Or.inr rfl⟩
  refine (parse_write_drops ?_).1 ?_
  · simp only [List.forall_mem_cons, List.not_mem_nil, false_imp_iff, implies_true, and_true]
    exact ⟨⟨hHalf, hFifty⟩, trivial, hZero⟩
  · have hSmall : ∀ n ∈ [7, 1, 2, 3, -4, 0, 9, -3, 6, 1], Integer.fits n = true := by
      decide +kernel
    simp only [List.forall_mem_cons, List.not_mem_nil, false_imp_iff, implies_true, and_true]
      at hSmall
    obtain ⟨h7, h1, h2, h3, h4, h0, h9, hM3, h6, -⟩ := hSmall
    simp only [Fits, List.forall_mem_cons, List.not_mem_nil, false_imp_iff, implies_true, and_true]
    refine ⟨fun _ => ⟨h7, ?_⟩, fun hNone => absurd rfl hNone, fun _ => ⟨hM3, ?_⟩⟩
    · simp only [List.forall_mem_cons, List.not_mem_nil, false_imp_iff, implies_true, and_true]
      exact ⟨⟨h1, h2, h3⟩, ⟨h4, h0, h9⟩⟩
    · exact List.forall_mem_singleton.2 ⟨h6, h1, h1⟩

/-- Not every table has a text: an item may have a number with too many digits. -/
theorem exists_not_written_drops :
    ¬∀ table : DropTable,
      (∀ entry ∈ table.entries, ∀ drop ∈ entry.2, drop.percentage.IsFinite) →
        ∃ text read, table.write = .ok text ∧ parse text = .ok read := by
  intro hAll
  have hOne : (Number.int 1).IsFinite :=
    ⟨.finite false (twoPow 52) (-52), ⟨by decide, by decide, by decide, Or.inl le_rfl⟩, by decide⟩
  let drop : Drop := ⟨10 ^ 4300, 1, 1, .int 1⟩
  let table : DropTable := ⟨[(5, [drop])], by decide⟩
  have hFinite : ∀ entry ∈ table.entries, ∀ drop ∈ entry.2, drop.percentage.IsFinite :=
    List.forall_mem_singleton.2 (List.forall_mem_singleton.2 hOne)
  have hLong : ¬table.Fits := by
    intro hFits
    have hEntry : EntryFits (5, [drop]) :=
      hFits (5, [drop]) List.mem_cons_self (List.cons_ne_nil drop [])
    exact absurd (hEntry.2 drop List.mem_cons_self).item (by decide +kernel)
  obtain ⟨fault, hError⟩ := write_eq_error hFinite hLong
  obtain ⟨text, read, hWrite, -⟩ := hAll table hFinite
  rw [hError] at hWrite
  cases hWrite

end DropTable

end QuestScript

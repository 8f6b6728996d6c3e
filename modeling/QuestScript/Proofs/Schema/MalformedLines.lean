import QuestScript.Proofs.Text.Lines
import QuestScript.Schema.Document
/-!
Malformed lines in schema documents. One that is put into a document takes no entry away, wherever it
is put, but for a pair of brackets with nothing in them: where no line between brackets comes before
it, reading begins with it, finds no section there, and gives up.
-/

namespace QuestScript.Schema.Document

open QuestScript.Text

/-- Whether a line without blanks at its ends is malformed: it is not empty and no comment, no key
ends in it, and it does not begin with a name between brackets. -/
structure IsMalformed (line : List Char) : Prop where
  nonempty : line ≠ []
  noRemark : line.head? ≠ some ';'
  noKey : ∀ c ∈ line, isDelimiter c = false
  noHeader : ∀ name rest, name ≠ [] → line ≠ '[' :: (name ++ ']' :: rest)

/-- The name of a header stands between the brackets that the line begins with. -/
theorem headerName?_eq_some {line name : List Char} (hHeader : headerName? line = some name) :
    name ≠ [] ∧ ∃ rest, line = '[' :: (name ++ ']' :: rest) := by
  unfold headerName? at hHeader
  split at hHeader
  case h_2 => cases hHeader
  case h_1 tail =>
    split at hHeader
    case h_2 => cases hHeader
    case h_1 close c back hDrop =>
      obtain rfl : (c :: back).reverse = name := Option.some.inj hHeader
      have hSplit := List.takeWhile_append_dropWhile (p := (· ≠ ']')) (l := tail.reverse)
      have hClose : close = ']' := by
        have hStop := List.head?_dropWhile_not (· ≠ ']') tail.reverse
        rw [hDrop] at hStop
        simpa using hStop
      generalize hFront : tail.reverse.takeWhile (· ≠ ']') = front at hSplit
      rw [hDrop, hClose] at hSplit
      have hTail := congrArg List.reverse hSplit
      rw [List.reverse_reverse, List.reverse_append, List.reverse_cons, List.append_assoc,
        List.singleton_append] at hTail
      exact ⟨by simp, front.reverse, congrArg ('[' :: ·) hTail.symm⟩

namespace IsMalformed

variable {line : List Char}

/-- A malformed line is no header. -/
theorem headerName?_eq_none (hMalformed : IsMalformed line) : headerName? line = none := by
  by_contra hSome
  obtain ⟨name, hHeader⟩ := Option.ne_none_iff_exists'.1 hSome
  obtain ⟨hName, rest, hLine⟩ := headerName?_eq_some hHeader
  exact hMalformed.noHeader name rest hName hLine

/-- A malformed line is read as one: it is neither blank nor a header nor a field. -/
theorem ofText (hMalformed : IsMalformed line) : Line.ofText line = .malformed := by
  have hDrop : line.dropWhile (fun c => !isDelimiter c) = [] :=
    List.dropWhile_eq_nil_iff.2 fun c hMem => by simp [hMalformed.noKey c hMem]
  unfold Line.ofText
  split
  case h_1 => exact absurd rfl hMalformed.nonempty
  case h_2 => exact absurd rfl hMalformed.noRemark
  case h_3 => simp only [hMalformed.headerName?_eq_none, hDrop]

/-- What is between brackets and no header has nothing between them. -/
theorem isBracketed_iff (hMalformed : IsMalformed line) :
    isBracketed line = true ↔ line = ['[', ']'] := by
  constructor
  · intro hBracketed
    obtain ⟨hFirst, hLast⟩ : line.head? = some '[' ∧ line.getLast? = some ']' := by
      simpa [isBracketed] using hBracketed
    obtain ⟨rest, rfl⟩ := List.head?_eq_some_iff.1 hFirst
    cases rest using List.reverseRecOn with
    | nil => exact absurd hLast (by decide)
    | append_singleton name last =>
        rw [← List.cons_append, List.getLast?_concat, Option.some.injEq] at hLast
        subst hLast
        cases name with
        | nil => rfl
        | cons c name => exact absurd rfl (hMalformed.noHeader (c :: name) [] (by simp))
  · rintro rfl
    rfl

end IsMalformed

/-! ### Reading on -/

theorem step_malformed (sections : Sections) (line : Line) :
    Sections.step { sections with malformed := true } line =
      { sections.step line with malformed := true } := by
  cases line with
  | blank | malformed => rfl
  | header name =>
      simp only [Sections.step, Sections.open]
      split <;> rfl
  | field key value =>
      simp only [Sections.step, Sections.putField]
      split <;> rfl

/-- The lines behind a malformed one are taken as they would be without it. Only the mark stays.
-/
theorem foldl_step_malformed (lines : List Line) (sections : Sections) :
    lines.foldl Sections.step { sections with malformed := true } =
      { lines.foldl Sections.step sections with malformed := true } := by
  induction lines generalizing sections with
  | nil => rfl
  | cons line lines ih => rw [List.foldl_cons, step_malformed, ih, List.foldl_cons]

/-- Behind the first section a malformed line leaves no more than a mark. -/
theorem entries_sectionsOf {line : List Char} (hMalformed : IsMalformed line) (first : List Char)
    (before after : List (List Char)) :
    (sectionsOf first (before ++ line :: after)).entries =
      (sectionsOf first (before ++ after)).entries := by
  rw [sectionsOf, sectionsOf]
  cases headerName? first with
  | none => rfl
  | some name =>
      dsimp only
      rw [List.map_append, List.map_cons, hMalformed.ofText, List.foldl_append, List.foldl_cons,
        Sections.step, foldl_step_malformed, List.map_append, List.foldl_append]
      rfl

/-- The entries that trimmed lines describe: they are read from the first line between brackets on. -/
def entriesOf (lines : List (List Char)) : Table String Entry :=
  match lines.dropWhile fun line => !isBracketed line with
  | [] => Table.empty
  | first :: rest => (sectionsOf first rest).entries

/-- The entries of a document depend on its trimmed lines only. The complaint is made apart from
them. -/
theorem read_fst (text : String) :
    (read text).1 = entriesOf ((splitLines text.toList).map trim) := by
  rw [read, entriesOf]
  split <;> simp only [*]

/-- Lines without a bracket before the first header give no entries. -/
theorem entriesOf_append {before : List (List Char)}
    (hBefore : ∀ line ∈ before, isBracketed line = false) (after : List (List Char)) :
    entriesOf (before ++ after) = entriesOf after := by
  have hSkipped : ∀ line ∈ before, (!isBracketed line) = true := by simpa using hBefore
  rw [entriesOf, List.dropWhile_append_of_pos hSkipped, entriesOf]

theorem entriesOf_cons {first : List Char} (hFirst : isBracketed first = true)
    (rest : List (List Char)) : entriesOf (first :: rest) = (sectionsOf first rest).entries := by
  rw [entriesOf, List.dropWhile_cons_of_neg (by simp [hFirst])]

/-- Once reading has begun, a malformed line is passed over. -/
theorem entriesOf_insert {line : List Char} (hMalformed : IsMalformed line)
    {before : List (List Char)} (hBegun : ∃ other ∈ before, isBracketed other = true)
    (after : List (List Char)) :
    entriesOf (before ++ line :: after) = entriesOf (before ++ after) := by
  induction before with
  | nil =>
      obtain ⟨_, hMem, _⟩ := hBegun
      cases hMem
  | cons first before ih =>
      rw [List.cons_append, List.cons_append]
      cases hFirst : isBracketed first with
      | true =>
          rw [entriesOf_cons hFirst, entriesOf_cons hFirst, entries_sectionsOf hMalformed]
      | false =>
          have hLater : ∃ other ∈ before, isBracketed other = true := by simpa [hFirst] using hBegun
          have hSkipped : ∀ other ∈ [first], isBracketed other = false :=
            List.forall_mem_singleton.2 hFirst
          exact (entriesOf_append hSkipped _).trans
            ((ih hLater).trans (entriesOf_append hSkipped _).symm)

/-- A malformed line that is put into a document costs only itself. The one exception is a pair of
brackets with nothing in them in front of every other line between brackets, which costs all entries. -/
theorem read_lineInserted {place : Nat} {line : List Char} {text text' : String}
    (hInserted : LineInserted place line text text') (hMalformed : IsMalformed (trim line)) :
    (read text').1 =
      if trim line = ['[', ']'] ∧
          ∀ other ∈ (splitLines text.toList).take place, isBracketed (trim other) = false then
        Table.empty
      else (read text).1 := by
  rw [read_fst, read_fst, hInserted.lines]
  generalize hBefore : (splitLines text.toList).take place = before
  generalize hAfter : (splitLines text.toList).drop place = after
  have hText : splitLines text.toList = before ++ after := by
    rw [← hBefore, ← hAfter, List.take_append_drop]
  rw [hText, List.map_append, List.map_cons, List.map_append]
  by_cases hFirst : ∀ other ∈ before, isBracketed (trim other) = false
  · -- Reading has not begun in front of the line.
    have hSkipped : ∀ other ∈ before.map trim, isBracketed other = false := by simpa using hFirst
    rw [entriesOf_append hSkipped, entriesOf_append hSkipped]
    by_cases hEmpty : trim line = ['[', ']']
    · rw [if_pos ⟨hEmpty, hFirst⟩, entriesOf_cons (hMalformed.isBracketed_iff.2 hEmpty), hEmpty]
      rfl
    · have hUnread : isBracketed (trim line) = false := by
        rwa [← Bool.not_eq_true, hMalformed.isBracketed_iff]
      rw [if_neg fun hBoth => hEmpty hBoth.1,
        ← List.singleton_append, entriesOf_append (List.forall_mem_singleton.2 hUnread)]
  · -- Reading has begun, and goes on behind the line.
    have hBegun : ∃ other ∈ before.map trim, isBracketed other = true := by simpa using hFirst
    rw [if_neg fun hBoth => hFirst hBoth.2, entriesOf_insert hMalformed hBegun]

/-- A word by itself in the middle of a section, which keeps its entry, and a pair of brackets with
nothing in them in front of it, with which the entry is lost. -/
theorem read_lineInserted_sample :
    let text := "[A]\nsignature = A()\ndescription = d\n"
    let text' := "[A]\n word\nsignature = A()\ndescription = d\n"
    let text'' := "[] \n[A]\nsignature = A()\ndescription = d\n"
    (read text).1.keys = ["A"] ∧
      LineInserted 1 " word".toList text text' ∧ IsMalformed (trim " word".toList) ∧
      (read text').1 = (read text).1 ∧
      LineInserted 0 "[] ".toList text text'' ∧ IsMalformed (trim "[] ".toList) ∧
      (read text'').1 = Table.empty := by
  intro text text' text''
  have hWord : LineInserted 1 " word".toList text text' := ⟨by decide +kernel, by decide +kernel⟩
  have hBrackets : LineInserted 0 "[] ".toList text text'' := ⟨by decide +kernel, by decide +kernel⟩
  have hWordTrim : trim " word".toList = ['w', 'o', 'r', 'd'] := by decide +kernel
  have hBracketsTrim : trim "[] ".toList = ['[', ']'] := by decide +kernel
  have hWordMalformed : IsMalformed (trim " word".toList) := by
    rw [hWordTrim]
    exact ⟨by simp, by simp, by simp [isDelimiter], fun name rest _ => by simp⟩
  have hBracketsMalformed : IsMalformed (trim "[] ".toList) := by
    rw [hBracketsTrim]
    refine ⟨by simp, by simp, by simp [isDelimiter], fun name rest hName hLine => ?_⟩
    obtain ⟨c, name, rfl⟩ := List.exists_cons_of_ne_nil hName
    simp at hLine
  refine ⟨by decide +kernel, hWord, hWordMalformed, ?_, hBrackets, hBracketsMalformed, ?_⟩
  · exact (read_lineInserted hWord hWordMalformed).trans (if_neg (by decide +kernel))
  · exact (read_lineInserted hBrackets hBracketsMalformed).trans (if_pos (by decide +kernel))

end QuestScript.Schema.Document

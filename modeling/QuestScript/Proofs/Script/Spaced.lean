import QuestScript.Proofs.Script.Phrase
import QuestScript.Proofs.Text.Lines
/-!
Tokens written on one line, with blanks around them as one likes. Unlike laid out text, where the gaps
are given, this says of a text that it is written so; it is read as its tokens wherever it stands, and
trimming it takes only the blanks around it.
-/

namespace QuestScript.Script

open QuestScript.Text

/-- Blanks that break no line. -/
def IsSpacing (text : List Char) : Prop := ∀ c ∈ text, isBlank c = true ∧ isLineBreak c = false

/-- A text is written as some tokens in turn, with spacing in front of each and at the end. Where a
token ends, no character follows that would continue it. -/
inductive Spaced : List Symbol → List Char → Prop where
  | nil {spacing : List Char} (hSpacing : IsSpacing spacing) : Spaced [] spacing
  | cons {spacing rest : List Char} {symbol : Symbol} {symbols : List Symbol}
      (hSpacing : IsSpacing spacing) (hEnds : symbol.kind.endsBefore rest = true)
      (spaced : Spaced symbols rest) :
      Spaced (symbol :: symbols) (spacing ++ (symbol.source ++ rest))

/-- A token in which no line breaks. -/
structure Symbol.Unbroken (symbol : Symbol) : Prop where
  wellFormed : symbol.WellFormed
  isLineBreak_eq_false : ∀ c ∈ symbol.source, isLineBreak c = false

/-! ### Characters of tokens -/

/-- No blank stands in a token but in strings. -/
theorem Symbol.WellFormed.isBlank_eq_false {symbol : Symbol} (hForm : symbol.WellFormed)
    (hKind : symbol.kind ≠ .string) : ∀ c ∈ symbol.source, isBlank c = false := by
  obtain ⟨kind, value⟩ := symbol
  obtain ⟨hAdmits, hEof⟩ := hForm
  have hSource : (⟨kind, value⟩ : Symbol).source = value.toList := by
    unfold Symbol.source
    split
    · next h => exact absurd h hKind
    · rfl
  rw [hSource]
  simp only at hAdmits hEof hKind
  rcases Kind.admits_cases hAdmits with
    ⟨rfl, _⟩ | ⟨rfl, hWord⟩ | ⟨rfl, hWord⟩ | ⟨hEnd, _⟩ | ⟨c, hValue, hMark⟩
  · exact absurd rfl hKind
  · obtain ⟨c, cs, hChars, hStart, hMore⟩ := isWord_cases hWord
    rw [hChars, List.forall_mem_cons]
    refine ⟨isBlank_eq_false_of_isGapChar (isGapChar_eq_false_of_isIdentStart hStart), ?_⟩
    exact fun d hMem => isBlank_eq_false_of_isIdentChar (List.all_eq_true.1 hMore d hMem)
  · obtain ⟨c, cs, hChars, hStart, hMore⟩ := isWord_cases hWord
    rw [hChars, List.forall_mem_cons]
    refine ⟨isBlank_eq_false_of_isGapChar (isGapChar_eq_false_of_isNumberStart hStart), ?_⟩
    exact fun d hMem => isBlank_eq_false_of_isNumberChar (List.all_eq_true.1 hMore d hMem)
  · exact absurd hEnd hEof
  · rw [hValue, List.forall_mem_singleton]
    exact isBlank_eq_false_of_isGapChar (lexeme?_punctuation hMark []).1

/-- A token that is no string breaks no line, for only strings hold characters of all kinds. -/
theorem Symbol.WellFormed.unbroken {symbol : Symbol} (hForm : symbol.WellFormed)
    (hKind : symbol.kind ≠ .string) : symbol.Unbroken :=
  ⟨hForm, fun c hMem => Text.isLineBreak_eq_false (hForm.isBlank_eq_false hKind c hMem)⟩

/-- A token ends with a character that is no blank. -/
theorem Symbol.WellFormed.getLast?_source {symbol : Symbol} (hForm : symbol.WellFormed) :
    ∃ last, symbol.source.getLast? = some last ∧ isBlank last = false := by
  by_cases hKind : symbol.kind = .string
  · have hSource : symbol.source = '"' :: symbol.value.toList ++ ['"'] := by
      unfold Symbol.source
      rw [hKind]
    exact ⟨'"', by rw [hSource, List.getLast?_concat], by decide⟩
  · obtain ⟨c, cs, hSource⟩ := hForm.source_cons
    have hSome : symbol.source ≠ [] := by simp [hSource]
    exact ⟨_, List.getLast?_eq_some_getLast hSome,
      hForm.isBlank_eq_false hKind _ (List.getLast_mem hSome)⟩

/-! ### Written tokens -/

/-- A token that ends before a text ends before more of it. -/
theorem Kind.endsBefore_append {kind : Kind} {text rest : List Char}
    (hEnds : kind.endsBefore text = true) (hRest : Delimited rest) :
    kind.endsBefore (text ++ rest) = true := by
  cases text with
  | nil => exact hRest kind
  | cons c text => exact hEnds

theorem Kind.endsBefore_of_isPrefix {kind : Kind} {text front : List Char}
    (hPrefix : front <+: text) (hEnds : kind.endsBefore text = true) :
    kind.endsBefore front = true := by
  obtain ⟨back, rfl⟩ := hPrefix
  cases front with
  | nil => rfl
  | cons c front => exact hEnds

theorem IsSpacing.gaps {spacing : List Char} (hSpacing : IsSpacing spacing) :
    ∀ c ∈ spacing, isGapChar c = true := by
  intro c hMem
  rw [isGapChar, (hSpacing c hMem).1, Bool.true_or]

theorem IsSpacing.lineFeed_notMem {spacing : List Char} (hSpacing : IsSpacing spacing) :
    ∀ c ∈ spacing, c ≠ '\n' := by
  rintro c hMem rfl
  exact absurd (hSpacing _ hMem).2 (by decide)

namespace Spaced

variable {symbols : List Symbol} {text : List Char}

/-- Tokens may touch where the first one ends by itself. -/
theorem touching {symbol : Symbol} (spaced : Spaced symbols text)
    (hEnds : symbol.kind.endsBefore text = true) :
    Spaced (symbol :: symbols) (symbol.source ++ text) := by
  have hNone : IsSpacing [] := List.forall_mem_nil _
  exact .cons hNone hEnds spaced

/-- One more space in front of written tokens. -/
theorem space (spaced : Spaced symbols text) : Spaced symbols (' ' :: text) := by
  have hSpace : Text.isBlank ' ' = true ∧ Text.isLineBreak ' ' = false := by decide
  cases spaced with
  | nil hSpacing => exact .nil (List.forall_mem_cons.2 ⟨hSpace, hSpacing⟩)
  | cons hSpacing hEnds spaced =>
      exact .cons (List.forall_mem_cons.2 ⟨hSpace, hSpacing⟩) hEnds spaced

/-- Written tokens are read wherever they stand, all on one line, and then the text behind them. -/
theorem tokensFrom (spaced : Spaced symbols text)
    (hSymbols : ∀ symbol ∈ symbols, symbol.Unbroken) {rest : List Char} (hRest : Delimited rest)
    (position : Position) :
    ∃ tokens place, tokens.map Token.symbol = symbols ∧
      (∀ token ∈ tokens, token.line = position.line) ∧
      Script.tokensFrom position (text ++ rest) =
        (Script.tokensFrom place rest).map (tokens ++ ·) := by
  induction spaced generalizing position with
  | @nil spacing hSpacing =>
      refine ⟨[], position.advance spacing, rfl, nofun, ?_⟩
      rw [tokensFrom_gaps position hSpacing.gaps]
      cases Script.tokensFrom (position.advance spacing) rest <;> rfl
  | @cons spacing back symbol symbols hSpacing hEnds spaced ih =>
      obtain ⟨⟨hForm, -⟩, hMore⟩ := List.forall_mem_cons.1 hSymbols
      have hStart : (position.advance spacing).line = position.line := by
        rw [position.advance_of_no_lineFeed hSpacing.lineFeed_notMem]
      have hLine : ((position.advance spacing).advance symbol.source).line = position.line := by
        rw [Position.advance_of_no_lineFeed _ hForm.lineFeed_notMem]
        exact hStart
      obtain ⟨tokens, place, hSymbols, hLines, hRead⟩ :=
        ih hMore ((position.advance spacing).advance symbol.source)
      refine ⟨symbol.placedAt (position.advance spacing) :: tokens, place, ?_, ?_, ?_⟩
      · rw [List.map_cons, hSymbols]
        rfl
      · exact List.forall_mem_cons.2 ⟨hStart, fun token hMem => (hLines token hMem).trans hLine⟩
      · rw [List.append_assoc, List.append_assoc, tokensFrom_gaps position hSpacing.gaps,
          tokensFrom_symbol _ hForm (Kind.endsBefore_append hEnds hRest), hRead]
        cases Script.tokensFrom place rest <;> rfl

/-- No line breaks in written tokens. -/
theorem isLineBreak_eq_false (spaced : Spaced symbols text)
    (hSymbols : ∀ symbol ∈ symbols, symbol.Unbroken) :
    ∀ c ∈ text, isLineBreak c = false := by
  induction spaced with
  | nil hSpacing => exact fun c hMem => (hSpacing c hMem).2
  | cons hSpacing hEnds spaced ih =>
      obtain ⟨hSymbol, hMore⟩ := List.forall_mem_cons.1 hSymbols
      intro c hMem
      rcases List.mem_append.1 hMem with hMem | hMem
      · exact (hSpacing c hMem).2
      · rcases List.mem_append.1 hMem with hMem | hMem
        · exact hSymbol.isLineBreak_eq_false c hMem
        · exact ih hMore c hMem

theorem ne_nil {symbol : Symbol} (spaced : Spaced (symbol :: symbols) text)
    (hSymbols : ∀ other ∈ symbol :: symbols, other.Unbroken) : text ≠ [] := by
  obtain ⟨c, cs, hSource⟩ := (hSymbols symbol (List.mem_cons_self ..)).wellFormed.source_cons
  cases spaced with
  | cons hSpacing hEnds spaced => simp [hSource]

/-- The end of a text is trimmed to the end of its last token. -/
theorem trimEnd (spaced : Spaced symbols text) (hSymbols : ∀ symbol ∈ symbols, symbol.Unbroken) :
    Spaced symbols (Text.trimEnd text) := by
  induction spaced with
  | nil hSpacing =>
      rw [trimEnd_blanks fun c hMem => (hSpacing c hMem).1]
      exact .nil nofun
  | @cons spacing rest symbol symbols hSpacing hEnds spaced ih =>
      obtain ⟨⟨hForm, -⟩, hMore⟩ := List.forall_mem_cons.1 hSymbols
      obtain ⟨last, hLast, hBlank⟩ := hForm.getLast?_source
      have hFront : (spacing ++ symbol.source).getLast? = some last := by
        rw [List.getLast?_append, hLast]
        rfl
      rw [← List.append_assoc, trimEnd_append hFront hBlank, List.append_assoc]
      exact .cons hSpacing (Kind.endsBefore_of_isPrefix (trimEnd_isPrefix rest) hEnds) (ih hMore)

/-- A text is trimmed to what lies between its first token and its last one. -/
theorem trim {symbol : Symbol} (spaced : Spaced (symbol :: symbols) text)
    (hSymbols : ∀ other ∈ symbol :: symbols, other.Unbroken) :
    ∃ rest, Text.trim text = symbol.source ++ rest ∧ symbol.kind.endsBefore rest = true ∧
      Spaced (symbol :: symbols) (symbol.source ++ rest) := by
  obtain ⟨⟨hForm, -⟩, hMore⟩ := List.forall_mem_cons.1 hSymbols
  cases spaced with
  | @cons spacing rest _ _ hSpacing hEnds spaced =>
      have hEmpty : symbol.kind.endsBefore [] = true := rfl
      obtain ⟨c, cs, hSource, hGap, _⟩ := hForm.lexeme? hEmpty
      obtain ⟨last, hLast, hBlank⟩ := hForm.getLast?_source
      have hStart : trimStart (symbol.source ++ rest) = symbol.source ++ rest := by
        rw [hSource]
        exact trimStart_cons (isBlank_eq_false_of_isGapChar hGap) _
      have hTrim : Text.trim (spacing ++ (symbol.source ++ rest)) =
          symbol.source ++ Text.trimEnd rest := by
        rw [Text.trim, trimStart_append fun c hMem => (hSpacing c hMem).1, hStart,
          trimEnd_append hLast hBlank]
      have hTail : symbol.kind.endsBefore (Text.trimEnd rest) = true :=
        Kind.endsBefore_of_isPrefix (trimEnd_isPrefix rest) hEnds
      have hNone : IsSpacing [] := List.forall_mem_nil _
      exact ⟨Text.trimEnd rest, hTrim, hTail, .cons hNone hTail (spaced.trimEnd hMore)⟩

end Spaced

end QuestScript.Script

import QuestScript.Proofs.Script.Phrase
/-!
Where a text is read line by line, and what stays of its quotes. No token runs over the end of a
line, so the tokens of the lines behind it do not depend on what it holds. An argument that begins
with quotes keeps them, unless it is one string.
-/

namespace QuestScript.Script

open QuestScript.Text

theorem tokensFrom_lineFeed (position : Position) (rest : List Char) :
    tokensFrom position ('\n' :: rest) = tokensFrom (position.next '\n') rest :=
  tokensFrom_gap position rest (by decide)

/-- Of two ways to take a text apart, one goes further than the other. -/
theorem append_eq_append_cons {α : Type} {front back before after : List α} {a : α}
    (hText : front ++ back = before ++ a :: after) :
    (∃ more, before = front ++ more ∧ back = more ++ a :: after) ∨
      ∃ more, front = before ++ a :: more ∧ after = more ++ back := by
  rcases List.append_eq_append_iff.1 hText with ⟨more, hBefore, hBack⟩ | ⟨more, hFront, hAfter⟩
  · exact Or.inl ⟨more, hBefore, hBack⟩
  · cases more with
    | nil => exact Or.inl ⟨[], by simpa using hFront.symm, by simpa using hAfter.symm⟩
    | cons b more =>
        obtain ⟨rfl, rfl⟩ := List.cons.inj hAfter
        exact Or.inr ⟨more, hFront, rfl⟩

/-- A part of a line is a line again, and what is behind the part begins within the line. -/
theorem eq_append_lineFeed {front back line rest : List Char} (hFront : '\n' ∉ front)
    (hText : front ++ back = line ++ '\n' :: rest) :
    ∃ more, line = front ++ more ∧ back = more ++ '\n' :: rest := by
  rcases append_eq_append_cons hText with hMore | ⟨more, hLine, _⟩
  · exact hMore
  · exact absurd (by simp [hLine]) hFront

theorem all_isCommentChar {line : List Char} (hLine : '\n' ∉ line) :
    line.all isCommentChar = true := by
  rw [List.all_eq_true]
  intro c hMem
  have hChar : c ≠ '\n' := fun hEq => hLine (hEq ▸ hMem)
  simp [isCommentChar, hChar]

/-- A comment runs to the end of its line. -/
theorem comment_append_lineFeed {line : List Char} (hLine : '\n' ∉ line) (rest : List Char) :
    (line ++ '\n' :: rest).takeWhile isCommentChar = line ∧
      (line ++ '\n' :: rest).dropWhile isCommentChar = '\n' :: rest :=
  takeWhile_append_of_endsBefore ('\n' :: rest) (all_isCommentChar hLine) rfl

/-- The tokens of a line come before those of the text after it, which are read on their own. -/
theorem Lexed.line {position : Position} {line rest : List Char} (hLine : '\n' ∉ line)
    {tokens : List Token} (lexed : Lexed position (line ++ '\n' :: rest) tokens) :
    ∃ front back place, tokens = front ++ back ∧ Script.tokensFrom place rest = .ok back := by
  generalize hText : line ++ '\n' :: rest = text at lexed
  induction lexed generalizing line with
  | final => simp at hText
  | @gap _ _ _ tokens _ more ih =>
      cases line with
      | nil =>
          cases hText
          exact ⟨[], tokens, _, rfl, more.tokensFrom⟩
      | cons d line =>
          rw [List.cons_append, List.cons.injEq] at hText
          exact ih (fun hMem => hLine (List.mem_cons_of_mem _ hMem)) hText.2
  | @comment _ _ _ tokens hGap _ more _ =>
      cases line with
      | nil =>
          cases hText
          cases hGap
      | cons d line =>
          rw [List.cons_append, List.cons.injEq] at hText
          have hRest : '\n' ∉ line := fun hMem => hLine (List.mem_cons_of_mem _ hMem)
          have hTokens := more.tokensFrom
          rw [← hText.2, (comment_append_lineFeed hRest rest).2, tokensFrom_lineFeed] at hTokens
          exact ⟨[], tokens, _, rfl, hTokens⟩
  | @lexeme position _ _ lexeme _ _ _ hLexeme _ ih =>
      obtain ⟨hAdmits, _, _, hParts⟩ := lexeme?_shape hLexeme
      have hForm : (Token.mk lexeme.kind (String.ofList lexeme.value) position.line
          position.column).WellFormed := by
        simpa [Token.WellFormed] using hAdmits
      have hSource := Token.lineFeed_notMem_sourceText hForm
      rw [Lexeme.sourceText_toList] at hSource
      obtain ⟨more, hMore, hBack⟩ := eq_append_lineFeed hSource (hParts.symm.trans hText.symm)
      have hTail : '\n' ∉ more := fun hMem => hLine (by simp [hMore, hMem])
      obtain ⟨front, back, place, rfl, hFinal⟩ := ih hTail hBack.symm
      exact ⟨_ :: front, back, place, rfl, hFinal⟩

/-! ### Quotes -/

def leadingText : List Token → String
  | [] => ""
  | first :: rest => first.sourceText ++ joinAfter first (rest.takeWhile Token.isArgument)

/-- Arguments that touch are read as one, with their source texts joined. -/
theorem leadingText_touching {first second : Token} (tokens : List Token)
    (hArgument : second.isArgument = true) (hTouch : ¬first.Apart second) :
    leadingText (first :: second :: tokens) =
      first.sourceText ++ leadingText (second :: tokens) := by
  have hIf : ¬(second.line ≠ first.line ∨ second.column > first.endColumn) := hTouch
  rw [leadingText, List.takeWhile_cons_of_pos hArgument, joinAfter, if_neg hIf, String.empty_append]
  rfl

/-- A text that begins with a quote is read as a string first. -/
theorem tokensFrom_quote {position : Position} {rest : List Char} {tokens : List Token}
    (hTokens : tokensFrom position ('"' :: rest) = .ok tokens) :
    ∃ value rest' tokens', rest = value ++ '"' :: rest' ∧ (∀ c ∈ value, isStringChar c = true) ∧
      tokensFrom (position.advance ('"' :: value ++ ['"'])) rest' = .ok tokens' ∧
      tokens = ⟨.string, String.ofList value, position.line, position.column⟩ :: tokens' := by
  cases tokensFrom_lexed hTokens with
  | gap hGap => cases hGap
  | comment _ hComment => cases hComment
  | @lexeme _ _ _ _ tokens' _ _ hLexeme more =>
      rw [lexeme?, if_pos rfl] at hLexeme
      split at hLexeme
      · next rest' hDrop =>
          cases hLexeme
          refine ⟨rest.takeWhile isStringChar, rest', tokens', ?_, ?_, more.tokensFrom, rfl⟩
          · rw [← hDrop, List.takeWhile_append_dropWhile]
          · exact List.all_eq_true.1 List.all_takeWhile
      · cases hLexeme

/-- Quotes at the beginning of a text stay at the beginning of its first argument. -/
theorem quotes_prefix_leadingText {position : Position} {count : Nat} {text : List Char}
    {tokens : List Token} (hTokens : tokensFrom position text = .ok tokens)
    (hQuotes : List.replicate count '"' <+: text) :
    List.replicate count '"' <+: (leadingText tokens).toList := by
  induction count using Nat.twoStepInduction generalizing position text tokens with
  | zero => exact List.nil_prefix
  | one =>
      obtain ⟨rest, rfl⟩ := hQuotes
      obtain ⟨value, rest', tokens', _, _, _, rfl⟩ := tokensFrom_quote hTokens
      simp [leadingText, Token.sourceText]
  | more count ih _ =>
      obtain ⟨rest, rfl⟩ := hQuotes
      obtain ⟨value, rest', tokens', hRest, hValue, hTokens', rfl⟩ := tokensFrom_quote hTokens
      have hEmpty : value = [] := by
        cases value with
        | nil => rfl
        | cons c value =>
            have hChar : '"' = c := (List.cons.inj hRest).1
            exact absurd (hValue c (by simp)) (by rw [← hChar]; decide)
      subst hEmpty
      have hRest' : List.replicate count '"' ++ rest = rest' := (List.cons.inj hRest).2
      have hMore : List.replicate count '"' <+: (leadingText tokens').toList :=
        ih hTokens' (hRest' ▸ List.prefix_append _ _)
      cases count with
      | zero => simp [leadingText, Token.sourceText]
      | succ count =>
          rw [List.replicate_succ, List.cons_append] at hRest'
          subst hRest'
          obtain ⟨_, _, more, _, _, _, rfl⟩ := tokensFrom_quote hTokens'
          have hLength : "\"\"".length = 2 := rfl
          rw [leadingText_touching more rfl (by simp [Token.Apart, Token.endColumn,
            Token.sourceText, Position.advance, Position.next, hLength])]
          rw [String.toList_append, List.replicate_succ, List.replicate_succ]
          simpa [Token.sourceText] using hMore

end QuestScript.Script

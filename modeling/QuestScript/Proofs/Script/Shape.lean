import QuestScript.Script.Event
import QuestScript.Script.Lexer
import Mathlib.Data.List.Chain
/-!
What the tokens of a script look like: each has a value that its class admits, only the last one is
the end of the script, and two tokens that touch would not have been read as one. Nothing here says
which text the tokens were read from.
-/

namespace QuestScript.Script

open QuestScript.Text

/-- Whether a text has a first character of one class and only characters of another one after it. -/
def isWord (start more : Char → Bool) : List Char → Bool
  | [] => false
  | c :: rest => start c && rest.all more

def Kind.isMark (kind : Kind) : List Char → Bool
  | [c] => punctuation? c = some kind
  | _ => false

/-- Whether a text can be the value of a token of a class. -/
def Kind.admits (kind : Kind) (value : List Char) : Bool :=
  match kind with
  | .string => value.all isStringChar
  | .ident => isWord isIdentStart isIdentChar value
  | .number => isWord isNumberStart isNumberChar value
  | .eof => value.isEmpty
  | mark => mark.isMark value

/-- Whether a character would have been read as part of the token before it. -/
def Kind.extendsTo (kind : Kind) (c : Char) : Bool :=
  match kind with
  | .ident => isIdentChar c
  | .number => isNumberChar c
  | _ => false

/-- Whether a token of a class ends where a text begins. -/
def Kind.endsBefore (kind : Kind) (rest : List Char) : Bool :=
  rest.head?.all fun c => !kind.extendsTo c

/-- The value of a token is one that its class admits. -/
def Token.WellFormed (token : Token) : Prop := token.kind.admits token.value.toList = true

/-- A sequence of tokens that ends with the end of the script, which comes nowhere before. -/
inductive Complete : List Token → Prop where
  | final {token : Token} (hKind : token.kind = .eof) : Complete [token]
  | cons {token : Token} {tokens : List Token} (hKind : token.kind ≠ .eof)
      (rest : Complete tokens) : Complete (token :: tokens)

/-- A token stands apart from the one before it: on another line, or further to the right than where
that one ends. -/
def Token.Apart (previous token : Token) : Prop :=
  token.line ≠ previous.line ∨ token.column > previous.endColumn

instance (previous token : Token) : Decidable (previous.Apart token) :=
  inferInstanceAs (Decidable (_ ∨ _))

/-- A token can come next in a script: it stands apart, or does not extend the one before it. -/
def Token.Follows (previous token : Token) : Prop :=
  previous.Apart token ∨ previous.kind.endsBefore token.sourceText.toList = true

theorem head?_dropWhile_all (p : Char → Bool) (cs : List Char) :
    (cs.dropWhile p).head?.all (fun c => !p c) = true := by
  have hHead := List.head?_dropWhile_not p cs
  cases hDrop : (cs.dropWhile p).head? with
  | none => rfl
  | some c =>
      rw [hDrop] at hHead
      simpa using hHead

theorem punctuation?_admits {c : Char} {kind : Kind} (hMark : punctuation? c = some kind) :
    kind.admits [c] = true ∧ kind ≠ .eof ∧ kind ≠ .string ∧ ∀ d, kind.extendsTo d = false := by
  unfold punctuation? at hMark
  split at hMark <;> cases hMark <;> exact ⟨rfl, by decide, by decide, fun _ => rfl⟩

theorem Lexeme.source_of_ne_string {lexeme : Lexeme} (hKind : lexeme.kind ≠ .string) :
    lexeme.source = lexeme.value := by
  unfold Lexeme.source
  split
  · next h => exact absurd h hKind
  · rfl

/-- A lexeme has a value of its class, ends where the text after it begins, and makes up the text
together with it. -/
theorem lexeme?_shape {c : Char} {rest : List Char} {lexeme : Lexeme}
    (hLexeme : lexeme? c rest = some lexeme) :
    lexeme.kind.admits lexeme.value = true ∧ lexeme.kind ≠ .eof ∧
      lexeme.kind.endsBefore lexeme.rest = true ∧ c :: rest = lexeme.source ++ lexeme.rest := by
  unfold lexeme? at hLexeme
  split at hLexeme
  · next hQuote =>
      split at hLexeme
      · next rest' hDrop =>
          cases hLexeme
          refine ⟨List.all_takeWhile, by simp, ?_, ?_⟩
          · simp [Kind.endsBefore, Kind.extendsTo]
          · rw [hQuote]
            simp only [Lexeme.source, List.cons_append, List.append_assoc, List.nil_append,
              List.cons.injEq, true_and]
            rw [← hDrop, List.takeWhile_append_dropWhile]
      · cases hLexeme
  · split at hLexeme
    · next hStart =>
        cases hLexeme
        refine ⟨?_, by simp, head?_dropWhile_all isNumberChar rest, ?_⟩
        · simp [Kind.admits, isWord, hStart]
        · simp [Lexeme.source]
    · split at hLexeme
      · next hStart =>
          cases hLexeme
          refine ⟨?_, by simp, head?_dropWhile_all isIdentChar rest, ?_⟩
          · simp [Kind.admits, isWord, hStart]
          · simp [Lexeme.source]
      · obtain ⟨kind, hMark, rfl⟩ := Option.map_eq_some_iff.1 hLexeme
        obtain ⟨hAdmits, hEof, hString, hExtends⟩ := punctuation?_admits hMark
        refine ⟨hAdmits, hEof, ?_, ?_⟩
        · simp [Kind.endsBefore, hExtends]
        · rw [Lexeme.source_of_ne_string hString]
          rfl

/-! ### Places -/

/-- A token begins at a place or after it. -/
def Token.BeginsFrom (position : Position) (token : Token) : Prop :=
  position.line < token.line ∨ (position.line = token.line ∧ position.column ≤ token.column)

theorem Position.advance_append (position : Position) (cs ds : List Char) :
    position.advance (cs ++ ds) = (position.advance cs).advance ds :=
  List.foldl_append

/-- A text without line feeds moves a place to the right only. -/
theorem Position.advance_of_no_lineFeed (position : Position) {cs : List Char}
    (hLine : ∀ c ∈ cs, c ≠ '\n') :
    position.advance cs = ⟨position.line, position.column + cs.length⟩ := by
  induction cs generalizing position with
  | nil => rfl
  | cons c rest ih =>
      have hHead : c ≠ '\n' := hLine c (by simp)
      change (position.next c).advance rest = _
      rw [ih _ fun d hd => hLine d (by simp [hd]), Position.next, if_neg hHead]
      simp only [List.length_cons, Position.mk.injEq, true_and]
      omega

/-- What begins after a character begins after the place before it, and not at that place. -/
theorem Token.BeginsFrom.of_next {position : Position} {c : Char} {token : Token}
    (hBegins : token.BeginsFrom (position.next c)) :
    token.BeginsFrom position ∧
      (token.line ≠ position.line ∨ token.column > position.column) := by
  unfold Position.next at hBegins
  unfold Token.BeginsFrom at hBegins ⊢
  split at hBegins <;> simp only at hBegins <;> omega

theorem Token.BeginsFrom.of_advance {position : Position} {cs : List Char} {token : Token}
    (hBegins : token.BeginsFrom (position.advance cs)) : token.BeginsFrom position := by
  induction cs generalizing position with
  | nil => exact hBegins
  | cons c rest ih =>
      have hNext : token.BeginsFrom (position.next c) := ih hBegins
      exact hNext.of_next.1

/-! ### Sequences of tokens -/

theorem tokensFrom_nil (position : Position) :
    tokensFrom position [] = .ok [⟨.eof, "", position.line, position.column⟩] := by
  rw [tokensFrom]

theorem tokensFrom_gap (position : Position) {c : Char} (rest : List Char)
    (hGap : isGapChar c = true) :
    tokensFrom position (c :: rest) = tokensFrom (position.next c) rest := by
  rw [tokensFrom, if_pos hGap]

/-- A comment is passed over up to the end of its line. -/
theorem tokensFrom_comment (position : Position) {c : Char} {rest : List Char}
    (hGap : isGapChar c = false) (hComment : startsComment c rest = true) :
    tokensFrom position (c :: rest) =
      tokensFrom (position.advance (c :: rest.takeWhile isCommentChar))
        (rest.dropWhile isCommentChar) := by
  rw [tokensFrom, if_neg (by simp [hGap]), if_pos hComment]

/-- A lexeme is read as one token, and the text behind it is read on from where it ends. -/
theorem tokensFrom_lexeme (position : Position) {c : Char} {rest : List Char} {lexeme : Lexeme}
    (hGap : isGapChar c = false) (hComment : startsComment c rest = false)
    (hLexeme : lexeme? c rest = some lexeme) :
    tokensFrom position (c :: rest) =
      (tokensFrom (position.advance lexeme.source) lexeme.rest).map
        (⟨lexeme.kind, String.ofList lexeme.value, position.line, position.column⟩ :: ·) := by
  rw [tokensFrom, if_neg (by simp [hGap]), if_neg (by simp [hComment])]
  split
  · next h => simp [h] at hLexeme
  · next found h =>
      rw [hLexeme, Option.some.injEq] at h
      subst h
      cases tokensFrom (position.advance lexeme.source) lexeme.rest <;> rfl

/-- How the tokens of a text are read from its place on: by the character of a gap, by a comment and
by a lexeme at a time, up to the end of the script. -/
inductive Lexed : Position → List Char → List Token → Prop where
  | final (position : Position) : Lexed position [] [⟨.eof, "", position.line, position.column⟩]
  | gap {position : Position} {c : Char} {rest : List Char} {tokens : List Token}
      (hGap : isGapChar c = true) (more : Lexed (position.next c) rest tokens) :
      Lexed position (c :: rest) tokens
  | comment {position : Position} {c : Char} {rest : List Char} {tokens : List Token}
      (hGap : isGapChar c = false) (hComment : startsComment c rest = true)
      (more : Lexed (position.advance (c :: rest.takeWhile isCommentChar))
        (rest.dropWhile isCommentChar) tokens) : Lexed position (c :: rest) tokens
  | lexeme {position : Position} {c : Char} {rest : List Char} {lexeme : Lexeme}
      {tokens : List Token} (hGap : isGapChar c = false) (hComment : startsComment c rest = false)
      (hLexeme : lexeme? c rest = some lexeme)
      (more : Lexed (position.advance lexeme.source) lexeme.rest tokens) :
      Lexed position (c :: rest)
        (⟨lexeme.kind, String.ofList lexeme.value, position.line, position.column⟩ :: tokens)

/-- The tokens that are read from a text are related to it character by character. All later facts
about tokens are proved on this relation. -/
theorem tokensFrom_lexed {position : Position} {cs : List Char} {tokens : List Token}
    (hTokens : tokensFrom position cs = .ok tokens) : Lexed position cs tokens := by
  fun_induction tokensFrom position cs generalizing tokens with
  | case1 position =>
      cases hTokens
      exact Lexed.final position
  | case2 position c rest hGap ih => exact Lexed.gap hGap (ih hTokens)
  | case3 position c rest hGap hComment ih =>
      exact Lexed.comment (Bool.eq_false_iff.2 hGap) hComment (ih hTokens)
  | case4 => cases hTokens
  | case5 => cases hTokens
  | case6 position c rest hGap hComment lexeme hLexeme tokens' hRest ih =>
      cases hTokens
      exact Lexed.lexeme (Bool.eq_false_iff.2 hGap) (Bool.eq_false_iff.2 hComment) hLexeme (ih hRest)

namespace Lexed

variable {position : Position} {cs : List Char} {tokens : List Token}

/-- What is read so is what the text is read as. -/
theorem tokensFrom (lexed : Lexed position cs tokens) :
    Script.tokensFrom position cs = .ok tokens := by
  induction lexed with
  | final position => exact tokensFrom_nil position
  | gap hGap _ ih => rw [tokensFrom_gap _ _ hGap, ih]
  | comment hGap hComment _ ih => rw [tokensFrom_comment _ hGap hComment, ih]
  | lexeme hGap hComment hLexeme _ ih =>
      rw [tokensFrom_lexeme _ hGap hComment hLexeme, ih]
      rfl

/-- Every token begins where its text does, or further on. -/
theorem begins (lexed : Lexed position cs tokens) : ∀ token ∈ tokens, token.BeginsFrom position := by
  induction lexed with
  | final position => exact List.forall_mem_singleton.2 (Or.inr ⟨rfl, Nat.le_refl _⟩)
  | gap _ _ ih => exact fun token hMem => (ih token hMem).of_next.1
  | comment _ _ _ ih => exact fun token hMem => (ih token hMem).of_advance
  | lexeme _ _ _ _ ih =>
      exact List.forall_mem_cons.2
        ⟨Or.inr ⟨rfl, Nat.le_refl _⟩, fun token hMem => (ih token hMem).of_advance⟩

/-- Tokens that are read are well-formed. -/
theorem wellFormed (lexed : Lexed position cs tokens) : ∀ token ∈ tokens, token.WellFormed := by
  induction lexed with
  | final position => simp [Token.WellFormed, Kind.admits]
  | gap _ _ ih => exact ih
  | comment _ _ _ ih => exact ih
  | lexeme _ _ hLexeme _ ih =>
      refine List.forall_mem_cons.2 ⟨?_, ih⟩
      simpa [Token.WellFormed] using (lexeme?_shape hLexeme).1

/-- The end of the script comes once among the tokens, and last. -/
theorem complete (lexed : Lexed position cs tokens) : Complete tokens := by
  induction lexed with
  | final position => exact Complete.final rfl
  | gap _ _ ih => exact ih
  | comment _ _ _ ih => exact ih
  | lexeme _ _ hLexeme _ ih => exact Complete.cons (lexeme?_shape hLexeme).2.1 ih

end Lexed

theorem Lexeme.sourceText_toList (lexeme : Lexeme) (line column : Nat) :
    (Token.mk lexeme.kind (String.ofList lexeme.value) line column).sourceText.toList =
      lexeme.source := by
  obtain ⟨kind, value, rest⟩ := lexeme
  cases kind <;> simp [Token.sourceText, Lexeme.source]

theorem lexeme?_source_head? {c : Char} {rest : List Char} {lexeme : Lexeme}
    (hLexeme : lexeme? c rest = some lexeme) : lexeme.source.head? = some c := by
  have hText := (lexeme?_shape hLexeme).2.2.2
  have hLength := lexeme?_rest_length hLexeme
  cases hSource : lexeme.source with
  | nil =>
      rw [hSource, List.nil_append] at hText
      rw [← hText, List.length_cons] at hLength
      omega
  | cons d ds =>
      rw [hSource, List.cons_append, List.cons.injEq] at hText
      rw [hText.1, List.head?_cons]

/-- A token that ends at a place, before a text that does not extend it, is followed by the first
token of that text. -/
theorem Lexed.follows {position : Position} {cs : List Char} {previous token : Token}
    {tokens : List Token} (lexed : Lexed position cs (token :: tokens))
    (hLine : previous.line = position.line) (hColumn : previous.endColumn = position.column)
    (hEnds : previous.kind.endsBefore cs = true) : previous.Follows token := by
  have hApart {c : Char} (hBegins : token.BeginsFrom (position.next c)) : previous.Apart token := by
    rw [Token.Apart, hLine, hColumn]
    exact hBegins.of_next.2
  cases lexed with
  | final => exact Or.inr rfl
  | gap _ more => exact Or.inl (hApart (more.begins token (by simp)))
  | @comment _ c rest _ _ _ more =>
      have hBegins : token.BeginsFrom
          ((position.next c).advance (rest.takeWhile isCommentChar)) := more.begins token (by simp)
      exact Or.inl (hApart hBegins.of_advance)
  | lexeme _ _ hLexeme _ =>
      right
      rw [Lexeme.sourceText_toList]
      rw [Kind.endsBefore, List.head?_cons] at hEnds
      rwa [Kind.endsBefore, lexeme?_source_head? hLexeme]

theorem isWord_cases {start more : Char → Bool} {value : List Char}
    (hWord : isWord start more value = true) :
    ∃ c rest, value = c :: rest ∧ start c = true ∧ rest.all more = true := by
  cases value with
  | nil => cases hWord
  | cons c rest =>
      rw [isWord, Bool.and_eq_true] at hWord
      exact ⟨c, rest, rfl, hWord⟩

theorem isWord_mem {start more : Char → Bool} {value : List Char}
    (hWord : isWord start more value = true) {c : Char} (hMem : c ∈ value) :
    start c = true ∨ more c = true := by
  obtain ⟨first, rest, rfl, hStart, hMore⟩ := isWord_cases hWord
  rcases List.mem_cons.1 hMem with rfl | hMem
  · exact Or.inl hStart
  · exact Or.inr (List.all_eq_true.1 hMore c hMem)

theorem Kind.isMark_cases {kind : Kind} {value : List Char} (hMark : kind.isMark value = true) :
    ∃ c, value = [c] ∧ punctuation? c = some kind := by
  unfold isMark at hMark
  split at hMark
  · exact ⟨_, rfl, by simpa using hMark⟩
  · cases hMark

/-- A value has the characters of its class, or is a punctuation mark, or is empty. -/
theorem Kind.admits_cases {kind : Kind} {value : List Char} (hAdmits : kind.admits value = true) :
    (kind = .string ∧ value.all isStringChar = true) ∨
      (kind = .ident ∧ isWord isIdentStart isIdentChar value = true) ∨
      (kind = .number ∧ isWord isNumberStart isNumberChar value = true) ∨
      (kind = .eof ∧ value = []) ∨ ∃ c, value = [c] ∧ punctuation? c = some kind := by
  cases kind with
  | string => exact Or.inl ⟨rfl, hAdmits⟩
  | ident => exact Or.inr (Or.inl ⟨rfl, hAdmits⟩)
  | number => exact Or.inr (Or.inr (Or.inl ⟨rfl, hAdmits⟩))
  | eof => exact Or.inr (Or.inr (Or.inr (Or.inl ⟨rfl, List.isEmpty_iff.1 hAdmits⟩)))
  | _ => exact Or.inr (Or.inr (Or.inr (Or.inr (Kind.isMark_cases hAdmits))))

/-- The value of a token can stand between quotes. -/
theorem Kind.isStringChar_of_admits {kind : Kind} {value : List Char}
    (hAdmits : kind.admits value = true) {c : Char} (hMem : c ∈ value) : isStringChar c = true := by
  by_contra hChar
  have hBad : c = '"' ∨ c = '\n' := by
    simp only [isStringChar, Bool.and_eq_true, decide_eq_true_eq] at hChar
    tauto
  rcases Kind.admits_cases hAdmits with ⟨_, hAll⟩ | ⟨_, hWord⟩ | ⟨_, hWord⟩ | ⟨_, hEmpty⟩ | hMark
  · exact hChar (List.all_eq_true.1 hAll c hMem)
  · rcases hBad with rfl | rfl <;> exact absurd (isWord_mem hWord hMem) (by decide)
  · rcases hBad with rfl | rfl <;> exact absurd (isWord_mem hWord hMem) (by decide)
  · rw [hEmpty] at hMem
    cases hMem
  · obtain ⟨d, hValue, hMark⟩ := hMark
    rw [hValue, List.mem_singleton] at hMem
    subst hMem
    rcases hBad with rfl | rfl <;> cases hMark

/-- The value of a token stays on one line. -/
theorem Kind.lineFeed_notMem_of_admits {kind : Kind} {value : List Char}
    (hAdmits : kind.admits value = true) : '\n' ∉ value :=
  fun hMem => absurd (Kind.isStringChar_of_admits hAdmits hMem) (by decide)

/-- No value of a token has a line feed. -/
theorem Token.lineFeed_notMem_value {token : Token} (hForm : token.WellFormed) :
    '\n' ∉ token.value.toList :=
  Kind.lineFeed_notMem_of_admits hForm

theorem Token.lineFeed_notMem_sourceText {token : Token} (hForm : token.WellFormed) :
    '\n' ∉ token.sourceText.toList := by
  have hValue := Token.lineFeed_notMem_value hForm
  unfold Token.sourceText
  split
  · simpa using hValue
  · exact hValue

/-- The place after a lexeme is the end of its token, since no token goes on to another line. -/
theorem lexeme?_advance {c : Char} {rest : List Char} {lexeme : Lexeme}
    (hLexeme : lexeme? c rest = some lexeme) (position : Position) :
    position.advance lexeme.source = ⟨position.line, Token.endColumn ⟨lexeme.kind,
      String.ofList lexeme.value, position.line, position.column⟩⟩ := by
  have hForm : (Token.mk lexeme.kind (String.ofList lexeme.value) position.line
      position.column).WellFormed := by
    simpa [Token.WellFormed] using (lexeme?_shape hLexeme).1
  have hLine := Token.lineFeed_notMem_sourceText hForm
  rw [Lexeme.sourceText_toList] at hLine
  rw [position.advance_of_no_lineFeed fun c hc hEq => hLine (hEq ▸ hc), Token.endColumn,
    ← String.length_toList, Lexeme.sourceText_toList]

/-- Neighbours among the tokens stand apart or do not extend each other, or they would have been
read as one. -/
theorem Lexed.chain {position : Position} {cs : List Char} {tokens : List Token}
    (lexed : Lexed position cs tokens) : tokens.IsChain Token.Follows := by
  induction lexed with
  | final position => exact List.isChain_singleton _
  | gap _ _ ih => exact ih
  | comment _ _ _ ih => exact ih
  | @lexeme position _ _ _ _ _ _ hLexeme more ih =>
      have hAfter := lexeme?_advance hLexeme position
      rw [List.isChain_cons]
      refine ⟨fun token hToken => ?_, ih⟩
      obtain ⟨tokens'', rfl⟩ := List.head?_eq_some_iff.1 hToken
      refine more.follows ?_ ?_ (lexeme?_shape hLexeme).2.2.1
      · rw [hAfter]
      · rw [hAfter]

/-- The tokens of a script have values of their classes. -/
theorem tokenize_wellFormed {text : String} {tokens : List Token}
    (hTokens : tokenize text = .ok tokens) : ∀ token ∈ tokens, token.WellFormed :=
  (tokensFrom_lexed hTokens).wellFormed

/-- The end of a script is its last token and no other one. -/
theorem tokenize_complete {text : String} {tokens : List Token}
    (hTokens : tokenize text = .ok tokens) : Complete tokens :=
  (tokensFrom_lexed hTokens).complete

/-- Tokens of a script that touch would not have been read as one. -/
theorem tokenize_chain {text : String} {tokens : List Token}
    (hTokens : tokenize text = .ok tokens) : tokens.IsChain Token.Follows :=
  (tokensFrom_lexed hTokens).chain

end QuestScript.Script

import QuestScript.Proofs.Script.Shape
import QuestScript.Proofs.Text.Classes
/-!
Text that is laid out as tokens with gaps between them is read as these tokens. This is the other
direction of the shape of tokens: there a text is given and its tokens have a shape, here tokens of
that shape are given and the text is put together from them.
-/

namespace QuestScript.Script

open QuestScript.Text

/-- A token without its place. -/
structure Symbol where
  kind : Kind
  value : String
deriving DecidableEq, Repr

def Token.symbol (token : Token) : Symbol := ⟨token.kind, token.value⟩

/-- What a text is put together from: gaps, and tokens. -/
inductive Piece where
  | gap (text : List Char)
  | symbol (symbol : Symbol)
deriving DecidableEq, Repr

namespace Symbol

def source (symbol : Symbol) : List Char :=
  match symbol.kind with
  | .string => '"' :: symbol.value.toList ++ ['"']
  | _ => symbol.value.toList

/-- A value of its class, which is not the end of the script. -/
structure WellFormed (symbol : Symbol) : Prop where
  admits : symbol.kind.admits symbol.value.toList = true
  kind_ne : symbol.kind ≠ .eof

def placedAt (symbol : Symbol) (position : Position) : Token :=
  ⟨symbol.kind, symbol.value, position.line, position.column⟩

def lexeme (symbol : Symbol) (rest : List Char) : Lexeme :=
  ⟨symbol.kind, symbol.value.toList, rest⟩

@[simp] theorem lexeme_source (symbol : Symbol) (rest : List Char) :
    (symbol.lexeme rest).source = symbol.source := by
  obtain ⟨kind, value⟩ := symbol
  cases kind <;> rfl

@[simp] theorem sourceText_placedAt (symbol : Symbol) (position : Position) :
    (symbol.placedAt position).sourceText.toList = symbol.source := by
  obtain ⟨kind, value⟩ := symbol
  cases kind <;> simp [Symbol.placedAt, Token.sourceText, source]

end Symbol

def Piece.source : Piece → List Char
  | .gap text => text
  | .symbol found => found.source

/-- The text of pieces, one after the other. -/
def layout (pieces : List Piece) : List Char := pieces.flatMap Piece.source

def place (position : Position) : List Piece → List Token
  | [] => []
  | .gap text :: pieces => place (position.advance text) pieces
  | .symbol symbol :: pieces =>
    symbol.placedAt position :: place (position.advance symbol.source) pieces

/-- Pieces before some text: gaps between the tokens, which are well-formed and end where the text
after them begins. -/
def WellLaid (rest : List Char) : List Piece → Prop
  | [] => True
  | .gap text :: pieces => (∀ c ∈ text, isGapChar c = true) ∧ WellLaid rest pieces
  | .symbol symbol :: pieces =>
    symbol.WellFormed ∧ symbol.kind.endsBefore (layout pieces ++ rest) = true ∧
      WellLaid rest pieces

@[simp] theorem layout_nil : layout [] = [] := rfl

@[simp] theorem layout_cons (piece : Piece) (pieces : List Piece) :
    layout (piece :: pieces) = piece.source ++ layout pieces := rfl

@[simp] theorem layout_append (left right : List Piece) :
    layout (left ++ right) = layout left ++ layout right := List.flatMap_append

/-- Pieces are placed one behind the other. The second ones begin where the layout of the first
ones ends. -/
theorem place_append (position : Position) (left right : List Piece) :
    place position (left ++ right) =
      place position left ++ place (position.advance (layout left)) right := by
  induction left generalizing position with
  | nil => rfl
  | cons piece left ih =>
      cases piece with
      | gap text =>
          change place (position.advance text) (left ++ right) = _
          rw [ih, layout_cons, Position.advance_append]
          rfl
      | symbol symbol =>
          change symbol.placedAt position :: place (position.advance symbol.source) (left ++ right) = _
          rw [ih, layout_cons, Position.advance_append]
          rfl

/-- Pieces are well laid in two parts when the first are so before the layout of the second. -/
theorem wellLaid_append {rest : List Char} {left right : List Piece} :
    WellLaid rest (left ++ right) ↔ WellLaid (layout right ++ rest) left ∧ WellLaid rest right := by
  induction left with
  | nil => simp [WellLaid]
  | cons piece left ih =>
      cases piece with
      | gap text => simp [WellLaid, ih, and_assoc]
      | symbol symbol => simp [WellLaid, ih, and_assoc]

/-! ### One token -/

theorem takeWhile_append_of_endsBefore {α : Type} {p : α → Bool} {value : List α}
    (rest : List α) (hValue : value.all p = true) (hRest : rest.head?.all (fun c => !p c) = true) :
    (value ++ rest).takeWhile p = value ∧ (value ++ rest).dropWhile p = rest := by
  have hAll : ∀ c ∈ value, p c = true := List.all_eq_true.1 hValue
  have hTake : rest.takeWhile p = [] := by
    cases rest with
    | nil => rfl
    | cons c rest =>
        have hStop : p c = false := by simpa using hRest
        exact List.takeWhile_cons_of_neg (by simp [hStop])
  have hDrop : rest.dropWhile p = rest := by
    cases rest with
    | nil => rfl
    | cons c rest =>
        have hStop : p c = false := by simpa using hRest
        exact List.dropWhile_cons_of_neg (by simp [hStop])
  constructor
  · rw [List.takeWhile_append_of_pos hAll, hTake, List.append_nil]
  · rw [List.dropWhile_append_of_pos hAll, hDrop]

theorem lexeme?_punctuation {c : Char} {kind : Kind} (hMark : punctuation? c = some kind)
    (rest : List Char) :
    isGapChar c = false ∧ startsComment c rest = false ∧
      lexeme? c rest = some ⟨kind, [c], rest⟩ := by
  unfold punctuation? at hMark
  split at hMark <;> cases hMark <;>
    exact ⟨by decide, rfl, by
      rw [lexeme?, if_neg (by decide), if_neg (by decide), if_neg (by decide)]
      rfl⟩

/-- The text of a token begins with neither a gap nor a comment, and is read as the token if it ends
where the text after it begins. -/
theorem Symbol.WellFormed.lexeme? {symbol : Symbol} (hForm : symbol.WellFormed)
    {rest : List Char} (hEnds : symbol.kind.endsBefore rest = true) :
    ∃ c cs, symbol.source = c :: cs ∧ isGapChar c = false ∧
      startsComment c (cs ++ rest) = false ∧
      Script.lexeme? c (cs ++ rest) = some (symbol.lexeme rest) := by
  obtain ⟨kind, value⟩ := symbol
  obtain ⟨hAdmits, hEof⟩ := hForm
  simp only at hAdmits hEof
  rcases Kind.admits_cases hAdmits with
    ⟨rfl, hValue⟩ | ⟨rfl, hWord⟩ | ⟨rfl, hWord⟩ | ⟨hKind, _⟩ | ⟨c, hValue, hMark⟩
  · obtain ⟨hTake, hDrop⟩ := takeWhile_append_of_endsBefore ('"' :: rest) hValue rfl
    refine ⟨'"', value.toList ++ ['"'], rfl, by decide, rfl, ?_⟩
    rw [List.append_assoc, List.singleton_append, Script.lexeme?, if_pos rfl, hDrop, hTake]
    rfl
  · obtain ⟨c, cs, hChars, hStart, hMore⟩ := isWord_cases hWord
    obtain ⟨hTake, hDrop⟩ := takeWhile_append_of_endsBefore rest hMore hEnds
    have hSlash : c ≠ '/' := ne_of_isIdentStart hStart (by decide)
    have hQuote : c ≠ '"' := ne_of_isIdentStart hStart (by decide)
    refine ⟨c, cs, hChars, isGapChar_eq_false_of_isIdentStart hStart, ?_, ?_⟩
    · simp [startsComment, hSlash]
    · rw [Script.lexeme?, if_neg hQuote,
        if_neg (by simp [isNumberStart_eq_false_of_isIdentStart hStart]),
        if_pos hStart, hTake, hDrop, Symbol.lexeme, hChars]
  · obtain ⟨c, cs, hChars, hStart, hMore⟩ := isWord_cases hWord
    obtain ⟨hTake, hDrop⟩ := takeWhile_append_of_endsBefore rest hMore hEnds
    have hSlash : c ≠ '/' := ne_of_isNumberStart hStart (by decide)
    have hQuote : c ≠ '"' := ne_of_isNumberStart hStart (by decide)
    refine ⟨c, cs, hChars, isGapChar_eq_false_of_isNumberStart hStart, ?_, ?_⟩
    · simp [startsComment, hSlash]
    · rw [Script.lexeme?, if_neg hQuote, if_pos hStart, hTake, hDrop, Symbol.lexeme, hChars]
  · exact absurd hKind hEof
  · obtain ⟨hGap, hComment, hLexeme⟩ := lexeme?_punctuation hMark rest
    have hString : kind ≠ .string := (punctuation?_admits hMark).2.2.1
    refine ⟨c, [], ?_, hGap, hComment, ?_⟩
    · unfold Symbol.source
      split
      · next h => exact absurd h hString
      · exact hValue
    · rw [List.nil_append, hLexeme, Symbol.lexeme, hValue]

/-! ### Laid out text -/

/-- A well-formed symbol that ends before a text is read as one token, and the text behind it is
read on. -/
theorem tokensFrom_symbol (position : Position) {symbol : Symbol} (hForm : symbol.WellFormed)
    {rest : List Char} (hEnds : symbol.kind.endsBefore rest = true) :
    tokensFrom position (symbol.source ++ rest) =
      (tokensFrom (position.advance symbol.source) rest).map (symbol.placedAt position :: ·) := by
  obtain ⟨c, cs, hSource, hGap, hComment, hLexeme⟩ := hForm.lexeme? hEnds
  have hText : symbol.source ++ rest = c :: (cs ++ rest) := by rw [hSource, List.cons_append]
  rw [hText, tokensFrom_lexeme position hGap hComment hLexeme, Symbol.lexeme_source, Symbol.lexeme,
    String.ofList_toList]
  rfl

/-- Gaps are passed over. They move the place of what is behind them and nothing else. -/
theorem tokensFrom_gaps (position : Position) {text : List Char}
    (hGaps : ∀ c ∈ text, isGapChar c = true) (rest : List Char) :
    tokensFrom position (text ++ rest) = tokensFrom (position.advance text) rest := by
  induction text generalizing position with
  | nil => rfl
  | cons c text ih =>
      rw [List.cons_append, tokensFrom_gap position _ (hGaps c (by simp)),
        ih _ fun d hMem => hGaps d (by simp [hMem])]
      rfl

/-- Laid out text is read as the tokens it was put together from, whatever text comes after it. -/
theorem tokensFrom_layout (position : Position) {pieces : List Piece} {rest : List Char}
    (hLaid : WellLaid rest pieces) :
    tokensFrom position (layout pieces ++ rest) =
      (tokensFrom (position.advance (layout pieces)) rest).map (place position pieces ++ ·) := by
  induction pieces generalizing position with
  | nil =>
      change tokensFrom position rest = (tokensFrom position rest).map id
      cases tokensFrom position rest <;> rfl
  | cons piece pieces ih =>
      rw [layout_cons, List.append_assoc, Position.advance_append]
      cases piece with
      | gap text =>
          rw [Piece.source, tokensFrom_gaps position hLaid.1, ih _ hLaid.2]
          rfl
      | symbol symbol =>
          rw [Piece.source, tokensFrom_symbol position hLaid.1 hLaid.2.1, ih _ hLaid.2.2]
          cases tokensFrom ((position.advance symbol.source).advance (layout pieces)) rest <;> rfl

/-- What is read from laid out text begins with the tokens it was put together from. -/
theorem exists_tokens_layout {position : Position} {pieces : List Piece} {rest : List Char}
    (hLaid : WellLaid rest pieces) {tokens : List Token}
    (hTokens : tokensFrom position (layout pieces ++ rest) = .ok tokens) :
    ∃ after, tokens = place position pieces ++ after ∧
      tokensFrom (position.advance (layout pieces)) rest = .ok after := by
  rw [tokensFrom_layout position hLaid] at hTokens
  cases hRest : tokensFrom (position.advance (layout pieces)) rest with
  | error fault =>
      rw [hRest] at hTokens
      cases hTokens
  | ok after =>
      rw [hRest] at hTokens
      cases hTokens
      exact ⟨after, rfl, rfl⟩

end QuestScript.Script

import QuestScript.Proofs.Script.Layout
import QuestScript.Proofs.Script.Spelling
/-!
Arguments of several tokens. The tokens between two commas of a call are one argument, whose text
keeps a space where they stand apart and nothing where they touch. That text is read as the same
tokens again, so an argument that is written as its text comes back.
-/

namespace QuestScript.Script

open QuestScript.Text

def Symbol.isArgument (symbol : Symbol) : Bool :=
  symbol.kind = .string || symbol.kind = .ident || symbol.kind = .number

@[simp] theorem Symbol.isArgument_placedAt (symbol : Symbol) (position : Position) :
    (symbol.placedAt position).isArgument = symbol.isArgument := rfl

/-- The tokens of an argument. Each one after the first either stands apart from the one before it
or touches it. -/
structure Phrase where
  first : Symbol
  more : List (Bool × Symbol)
deriving DecidableEq, Repr

namespace Phrase

def morePieces : List (Bool × Symbol) → List Piece
  | [] => []
  | (apart, symbol) :: more =>
    (if apart then [.gap [' ']] else []) ++ .symbol symbol :: morePieces more

def pieces (phrase : Phrase) : List Piece := .symbol phrase.first :: morePieces phrase.more

def text (phrase : Phrase) : String := String.ofList (layout phrase.pieces)

def arg (phrase : Phrase) : Arg :=
  if phrase.more.isEmpty then
    match phrase.first.kind with
    | .string => .quoted phrase.first.value
    | .number => .number phrase.first.value
    | _ => .word phrase.first.value
  else if phrase.first.kind = .number then .number phrase.text
  else .word phrase.text

/-- Tokens that can follow one another in an argument: those that touch would not have been read as
one. -/
def Joined : Symbol → List (Bool × Symbol) → Prop
  | _, [] => True
  | previous, (apart, symbol) :: more =>
    symbol.WellFormed ∧ symbol.isArgument = true ∧
      (apart = true ∨ previous.kind.endsBefore symbol.source = true) ∧ Joined symbol more

/-- Tokens that can be an argument. -/
structure WellFormed (phrase : Phrase) : Prop where
  first : phrase.first.WellFormed
  isArgument : phrase.first.isArgument = true
  more : Joined phrase.first phrase.more

def single (kind : Kind) (value : String) : Phrase := ⟨⟨kind, value⟩, []⟩

end Phrase

/-! ### Reading the text of a phrase -/

/-- Whether every token ends where a text begins. -/
def Delimited (rest : List Char) : Prop := ∀ kind : Kind, kind.endsBefore rest = true

theorem delimited_cons {c : Char} (rest : List Char) (hIdent : isIdentChar c = false)
    (hNumber : isNumberChar c = false) : Delimited (c :: rest) := by
  intro kind
  cases kind <;> simp [Kind.endsBefore, Kind.extendsTo, hIdent, hNumber]

theorem Symbol.WellFormed.source_cons {symbol : Symbol} (hForm : symbol.WellFormed) :
    ∃ c cs, symbol.source = c :: cs := by
  have hEnds : symbol.kind.endsBefore [] = true := rfl
  obtain ⟨c, cs, hSource, _⟩ := hForm.lexeme? hEnds
  exact ⟨c, cs, hSource⟩

/-- Whether a token ends is seen from the first character of the next one. -/
theorem Kind.endsBefore_source {kind : Kind} {symbol : Symbol} (hForm : symbol.WellFormed)
    (rest : List Char) :
    kind.endsBefore (symbol.source ++ rest) = kind.endsBefore symbol.source := by
  obtain ⟨c, cs, hSource⟩ := hForm.source_cons
  rw [hSource]
  rfl

theorem Symbol.WellFormed.lineFeed_notMem {symbol : Symbol} (hForm : symbol.WellFormed) :
    ∀ c ∈ symbol.source, c ≠ '\n' := by
  have hValue : '\n' ∉ symbol.value.toList := Kind.lineFeed_notMem_of_admits hForm.admits
  intro c hMem hEq
  subst hEq
  unfold Symbol.source at hMem
  split at hMem
  · simp [hValue] at hMem
  · exact hValue hMem

/-- A token moves the place along its line, by as many columns as its source has characters. -/
theorem Symbol.advance_source {symbol : Symbol} (hForm : symbol.WellFormed) (position : Position) :
    position.advance symbol.source =
      ⟨position.line, position.column + symbol.source.length⟩ :=
  position.advance_of_no_lineFeed hForm.lineFeed_notMem

theorem Symbol.endColumn_placedAt (symbol : Symbol) (position : Position) :
    (symbol.placedAt position).endColumn = position.column + symbol.source.length := by
  rw [Token.endColumn, ← String.length_toList, Symbol.sourceText_placedAt]
  rfl

/-- An argument of several tokens is a number when it begins with one, else a word. Quotes of its
strings are kept. -/
theorem Arg.ofTokens_cons (first token : Token) (tokens : List Token) :
    Arg.ofTokens first (token :: tokens) =
      if first.kind = .number then .number (first.sourceText ++ joinAfter first (token :: tokens))
      else .word (first.sourceText ++ joinAfter first (token :: tokens)) := rfl

namespace Phrase

/-- The further symbols of an argument are well laid behind its first one. -/
theorem wellLaid_more {previous : Symbol} {more : List (Bool × Symbol)}
    (hJoined : Joined previous more) {rest : List Char} (hRest : Delimited rest) :
    previous.kind.endsBefore (layout (morePieces more) ++ rest) = true ∧
      WellLaid rest (morePieces more) := by
  induction more generalizing previous with
  | nil => exact ⟨hRest _, trivial⟩
  | cons entry more ih =>
      obtain ⟨apart, symbol⟩ := entry
      obtain ⟨hForm, _, hApart, hMore⟩ := hJoined
      obtain ⟨hEnds, hLaid⟩ := ih hMore
      have hSymbol : WellLaid rest (.symbol symbol :: morePieces more) := ⟨hForm, hEnds, hLaid⟩
      cases apart with
      | true =>
          refine ⟨?_, by simp [isGapChar]; decide, hSymbol⟩
          exact delimited_cons _ (by decide) (by decide) _
      | false =>
          refine ⟨?_, hSymbol⟩
          have hTouch : previous.kind.endsBefore symbol.source = true := by simpa using hApart
          change previous.kind.endsBefore ((symbol.source ++ _) ++ rest) = true
          rw [List.append_assoc, Kind.endsBefore_source hForm]
          exact hTouch

theorem WellFormed.wellLaid {phrase : Phrase} (hForm : phrase.WellFormed) {rest : List Char}
    (hRest : Delimited rest) : WellLaid rest phrase.pieces := by
  obtain ⟨hEnds, hLaid⟩ := wellLaid_more hForm.more hRest
  exact ⟨hForm.first, hEnds, hLaid⟩

/-- The joined text of placed symbols is their layout, with a blank where they stand apart. -/
theorem joinAfter_place {previous : Symbol} (hPrevious : previous.WellFormed)
    (position : Position) {more : List (Bool × Symbol)} (hJoined : Joined previous more) :
    joinAfter (previous.placedAt position)
        (place (position.advance previous.source) (morePieces more)) =
      String.ofList (layout (morePieces more)) := by
  induction more generalizing previous position with
  | nil => rfl
  | cons entry more ih =>
      obtain ⟨apart, symbol⟩ := entry
      obtain ⟨hForm, _, _, hMore⟩ := hJoined
      have hEnd := previous.endColumn_placedAt position
      have hSource (place : Position) : (symbol.placedAt place).sourceText =
          String.ofList symbol.source := by
        rw [← String.toList_inj, String.toList_ofList, Symbol.sourceText_placedAt]
      cases apart with
      | true =>
          have hTail := ih hForm ((position.advance previous.source).advance [' ']) hMore
          have hApart : (symbol.placedAt
              ((position.advance previous.source).advance [' '])).column >
                (previous.placedAt position).endColumn := by
            rw [hEnd, Symbol.advance_source hPrevious]
            exact Nat.lt_succ_self _
          change (if _ then " " else "") ++ _ ++ joinAfter _ _ = _
          rw [if_pos (Or.inr hApart), hTail, hSource]
          simp [morePieces, Piece.source, String.ofList_append, ← String.toList_inj]
      | false =>
          have hTail := ih hForm (position.advance previous.source) hMore
          have hTouch : ¬((symbol.placedAt (position.advance previous.source)).line ≠
                (previous.placedAt position).line ∨
              (symbol.placedAt (position.advance previous.source)).column >
                (previous.placedAt position).endColumn) := by
            rw [hEnd, Symbol.advance_source hPrevious]
            simp [Symbol.placedAt]
          change (if _ then " " else "") ++ _ ++ joinAfter _ _ = _
          rw [if_neg hTouch, hTail, hSource]
          simp [morePieces, Piece.source]

theorem isArgument_place {previous : Symbol} {more : List (Bool × Symbol)}
    (hJoined : Joined previous more) (position : Position) :
    ∀ token ∈ place position (morePieces more), token.isArgument = true := by
  induction more generalizing previous position with
  | nil => simp [morePieces, place]
  | cons entry more ih =>
      obtain ⟨apart, symbol⟩ := entry
      obtain ⟨_, hArgument, _, hMore⟩ := hJoined
      cases apart with
      | true =>
          intro token hMem
          rcases List.mem_cons.1 hMem with rfl | hMem
          · exact hArgument
          · exact ih hMore _ token hMem
      | false =>
          intro token hMem
          rcases List.mem_cons.1 hMem with rfl | hMem
          · exact hArgument
          · exact ih hMore _ token hMem

/-- The tokens of a phrase are one argument, wherever they are placed. -/
theorem WellFormed.place {phrase : Phrase} (hForm : phrase.WellFormed) (position : Position) :
    ∃ first more, Script.place position phrase.pieces = first :: more ∧
      first.isArgument = true ∧ (∀ token ∈ more, token.isArgument = true) ∧
      Arg.ofTokens first more = phrase.arg := by
  refine ⟨phrase.first.placedAt position, _, rfl, hForm.isArgument,
    isArgument_place hForm.more _, ?_⟩
  have hText : (phrase.first.placedAt position).sourceText ++
      joinAfter (phrase.first.placedAt position)
        (Script.place (position.advance phrase.first.source) (morePieces phrase.more)) =
          phrase.text := by
    rw [joinAfter_place hForm.first position hForm.more, ← String.toList_inj, String.toList_append,
      Symbol.sourceText_placedAt]
    simp [text, pieces, Piece.source]
  obtain ⟨first, more⟩ := phrase
  cases more with
  | nil => rfl
  | cons entry more =>
      obtain ⟨token, tokens, hTokens⟩ : ∃ token tokens,
          Script.place (position.advance first.source) (morePieces (entry :: more)) =
            token :: tokens := by
        obtain ⟨apart, symbol⟩ := entry
        cases apart <;> exact ⟨_, _, rfl⟩
      rw [hTokens] at hText ⊢
      rw [Arg.ofTokens_cons, hText]
      rfl

end Phrase

/-! ### The phrase of an argument that was read -/

namespace Phrase

/-- The tokens after one of an argument, with whether they stand apart. -/
def moreOf (previous : Token) : List Token → List (Bool × Symbol)
  | [] => []
  | token :: tokens => (decide (previous.Apart token), token.symbol) :: moreOf token tokens

def ofTokens (first : Token) (more : List Token) : Phrase := ⟨first.symbol, moreOf first more⟩

theorem source_symbol (token : Token) : token.symbol.source = token.sourceText.toList := by
  obtain ⟨kind, value, line, column⟩ := token
  cases kind <;> simp [Token.symbol, Symbol.source, Token.sourceText]

/-- The pieces made of the tokens of an argument are laid out as its joined text. -/
theorem layout_moreOf (previous : Token) (tokens : List Token) :
    layout (morePieces (moreOf previous tokens)) = (joinAfter previous tokens).toList := by
  induction tokens generalizing previous with
  | nil => rfl
  | cons token tokens ih =>
      rw [moreOf, joinAfter, String.toList_append, String.toList_append, ← ih, ← source_symbol]
      by_cases hApart : previous.Apart token
      · have hIf : token.line ≠ previous.line ∨ token.column > previous.endColumn := hApart
        simp [morePieces, hApart, if_pos hIf, Piece.source]
      · have hIf : ¬(token.line ≠ previous.line ∨ token.column > previous.endColumn) := hApart
        simp [morePieces, hApart, if_neg hIf, Piece.source]

/-- An argument is the argument of its phrase. -/
theorem arg_ofTokens (first : Token) (more : List Token) :
    (ofTokens first more).arg = Arg.ofTokens first more := by
  cases more with
  | nil => rfl
  | cons token tokens =>
      have hText : (ofTokens first (token :: tokens)).text =
          first.sourceText ++ joinAfter first (token :: tokens) := by
        rw [← String.toList_inj, String.toList_append, ← layout_moreOf, ← source_symbol]
        simp [text, pieces, ofTokens, Piece.source]
      rw [Arg.ofTokens_cons, ← hText]
      rfl

theorem wellFormed_symbol {token : Token} (hForm : token.WellFormed)
    (hArgument : token.isArgument = true) : token.symbol.WellFormed := by
  refine ⟨hForm, ?_⟩
  intro hEof
  have hKind : token.kind = .eof := hEof
  simp [Token.isArgument, Token.isName, hKind] at hArgument

/-- The tokens of an argument that was read are joined as they were in the script. -/
theorem joined_moreOf {previous : Token} {tokens : List Token}
    (hForm : ∀ token ∈ tokens, token.WellFormed)
    (hArguments : ∀ token ∈ tokens, token.isArgument = true)
    (hChain : (previous :: tokens).IsChain Token.Follows) :
    Joined previous.symbol (moreOf previous tokens) := by
  induction tokens generalizing previous with
  | nil => trivial
  | cons token tokens ih =>
      rw [List.isChain_cons_cons] at hChain
      obtain ⟨hFollows, hRest⟩ := hChain
      refine ⟨wellFormed_symbol (hForm token (by simp)) (hArguments token (by simp)),
        hArguments token (by simp), ?_,
        ih (fun t hMem => hForm t (by simp [hMem])) (fun t hMem => hArguments t (by simp [hMem]))
          hRest⟩
      rw [source_symbol, decide_eq_true_eq]
      exact hFollows

/-- The tokens of an argument that was read make a well-formed phrase. -/
theorem wellFormed_ofTokens {first : Token} {more : List Token}
    (hForm : ∀ token ∈ first :: more, token.WellFormed)
    (hArguments : ∀ token ∈ first :: more, token.isArgument = true)
    (hChain : (first :: more).IsChain Token.Follows) : (ofTokens first more).WellFormed :=
  ⟨wellFormed_symbol (hForm first (by simp)) (hArguments first (by simp)),
    hArguments first (by simp),
    joined_moreOf (fun t hMem => hForm t (by simp [hMem]))
      (fun t hMem => hArguments t (by simp [hMem])) hChain⟩

end Phrase

/-- Every argument of a call is the argument of a phrase. -/
theorem ArgumentsSpelled.exists_phrase {tokens : List Token} {args : List Arg}
    (spelled : ArgumentsSpelled tokens args) (hForm : ∀ token ∈ tokens, token.WellFormed)
    (hChain : tokens.IsChain Token.Follows) :
    ∀ arg ∈ args, ∃ phrase : Phrase, phrase.WellFormed ∧ phrase.arg = arg := by
  induction spelled with
  | @last first close more hFirst hMore hClose =>
      intro arg hMem
      rw [List.mem_singleton.1 hMem]
      refine ⟨.ofTokens first more, ?_, Phrase.arg_ofTokens first more⟩
      refine Phrase.wellFormed_ofTokens (fun t ht => hForm t (List.mem_append_left _ ht)) ?_
        hChain.left_of_append
      exact List.forall_mem_cons.2 ⟨hFirst, hMore⟩
  | @next first comma more tokens args hFirst hMore hComma rest ih =>
      intro arg hMem
      rcases List.mem_cons.1 hMem with rfl | hMem
      · refine ⟨.ofTokens first more, ?_, Phrase.arg_ofTokens first more⟩
        refine Phrase.wellFormed_ofTokens (fun t ht => hForm t (List.mem_append_left _ ht)) ?_
          hChain.left_of_append
        exact List.forall_mem_cons.2 ⟨hFirst, hMore⟩
      · refine ih (fun t ht => hForm t (by simp [ht])) ?_ arg hMem
        exact (List.isChain_cons.1 hChain.right_of_append).2

/-- Every argument of a list that was read is that of a well-formed phrase. -/
theorem ArgumentListSpelled.exists_phrase {tokens : List Token} {args : List Arg}
    (spelled : ArgumentListSpelled tokens args) (hForm : ∀ token ∈ tokens, token.WellFormed)
    (hChain : tokens.IsChain Token.Follows) :
    ∀ arg ∈ args, ∃ phrase : Phrase, phrase.WellFormed ∧ phrase.arg = arg := by
  cases spelled with
  | empty hClose => simp
  | args spelled => exact spelled.exists_phrase hForm hChain

end QuestScript.Script

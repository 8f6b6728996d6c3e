import QuestScript.Proofs.Script.Lines
/-!
Splitting a script into tokens loses nothing. The text is made up of the source texts of its tokens,
each of them at its place, with gaps before, between and behind them; and a text that can be made up
so at all, in whatever way, is never refused. The tokens of a script are the longest ones, so where a
text is taken apart into shorter ones they have to be put together again.
-/

namespace QuestScript.Script

open QuestScript.Text

/-! ### Places -/

def lineAfter (text : List Char) : Nat := 1 + text.count '\n'

def columnAfter (text : List Char) : Nat := 1 + (text.reverse.takeWhile (· ≠ '\n')).length

/-- The place behind a text is found by counting its line feeds and the characters after the last
one. -/
theorem Position.advance_start (text : List Char) :
    Position.start.advance text = ⟨lineAfter text, columnAfter text⟩ := by
  induction text using List.reverseRecOn with
  | nil => rfl
  | append_singleton text c ih =>
      have hLast : Position.start.advance (text ++ [c]) = (Position.start.advance text).next c := by
        rw [Position.advance_append]
        rfl
      rw [hLast, ih, Position.next]
      by_cases hFeed : c = '\n'
      · simp [hFeed, lineAfter, columnAfter, Nat.add_assoc]
      · simp [hFeed, lineAfter, columnAfter, Nat.add_assoc]

/-- The place of a token is the one behind some text, and it ends where its source text ends. -/
structure Token.StandsBehind (token : Token) (before : List Char) : Prop where
  line : token.line = lineAfter before
  column : token.column = columnAfter before
  endColumn : token.endColumn = columnAfter (before ++ token.sourceText.toList)

/-! ### Texts taken apart -/

/-- What may stand in front of some text between two tokens: blanks, byte order marks, and comments,
each up to the end of its line or of the whole text. -/
inductive IsGap (rest : List Char) : List Char → Prop where
  | nil : IsGap rest []
  | char {c : Char} {gap : List Char} (hChar : isGapChar c = true) (more : IsGap rest gap) :
      IsGap rest (c :: gap)
  | comment {body gap : List Char} (hBody : '\n' ∉ body)
      (hEnd : ∀ c ∈ (gap ++ rest).head?, c = '\n') (more : IsGap rest gap) :
      IsGap rest ('/' :: '/' :: body ++ gap)

/-- A text is made up of the source texts of tokens, with gaps before, between and behind them. -/
inductive Splits : List Char → List Symbol → Prop where
  | final {gap : List Char} (hGap : IsGap [] gap) : Splits gap []
  | symbol {gap rest : List Char} {symbol : Symbol} {symbols : List Symbol}
      (hGap : IsGap (symbol.source ++ rest) gap) (hForm : symbol.WellFormed)
      (more : Splits rest symbols) : Splits (gap ++ (symbol.source ++ rest)) (symbol :: symbols)

/-- A text behind some other text is made up of the source texts of tokens, each of them at its
place, with gaps before, between and behind them. The last token is the end of the script, which
stands at the end of the text. -/
inductive Decomposes : List Char → List Char → List Token → Prop where
  | final {before gap : List Char} {token : Token} (hGap : IsGap [] gap) (hKind : token.kind = .eof)
      (hForm : token.WellFormed) (hPlace : token.StandsBehind (before ++ gap)) :
      Decomposes before gap [token]
  | token {before gap rest : List Char} {token : Token} {tokens : List Token}
      (hGap : IsGap (token.sourceText.toList ++ rest) gap) (hKind : token.kind ≠ .eof)
      (hForm : token.WellFormed) (hPlace : token.StandsBehind (before ++ gap))
      (more : Decomposes (before ++ gap ++ token.sourceText.toList) rest tokens) :
      Decomposes before (gap ++ (token.sourceText.toList ++ rest)) (token :: tokens)

/-- The tokens but the last one make up the text, whatever their places. -/
theorem Decomposes.splits {before text : List Char} {tokens : List Token}
    (decomposes : Decomposes before text tokens) :
    Splits text (tokens.dropLast.map Token.symbol) := by
  induction decomposes with
  | final hGap _ _ _ => exact .final hGap
  | @token before gap rest token tokens hGap hKind hForm hPlace more ih =>
      have hSome : tokens ≠ [] := by cases more <;> exact List.cons_ne_nil _ _
      rw [← Phrase.source_symbol] at hGap ⊢
      rw [List.dropLast_cons_of_ne_nil hSome, List.map_cons]
      exact .symbol hGap ⟨hForm, hKind⟩ ih

/-! ### What is read is made up so -/

section

variable {before text : List Char} {tokens : List Token}

/-- A character of a gap in front of a text belongs to its first gap. -/
theorem Decomposes.char {c : Char} (hChar : isGapChar c = true)
    (decomposes : Decomposes (before ++ [c]) text tokens) :
    Decomposes before (c :: text) tokens := by
  cases decomposes with
  | final hGap hKind hForm hPlace =>
      rw [List.append_assoc] at hPlace
      exact .final (.char hChar hGap) hKind hForm hPlace
  | @token _ gap rest token tokens hGap hKind hForm hPlace more =>
      rw [List.append_assoc before] at hPlace more
      rw [← List.cons_append]
      exact .token (.char hChar hGap) hKind hForm hPlace more

/-- A comment in front of a text belongs to its first gap. -/
theorem Decomposes.comment {body : List Char} (hBody : '\n' ∉ body)
    (hEnd : ∀ c ∈ text.head?, c = '\n')
    (decomposes : Decomposes (before ++ '/' :: '/' :: body) text tokens) :
    Decomposes before ('/' :: '/' :: body ++ text) tokens := by
  cases decomposes with
  | final hGap hKind hForm hPlace =>
      rw [List.append_assoc] at hPlace
      exact .final (.comment hBody (by simpa using hEnd) hGap) hKind hForm hPlace
  | @token _ gap rest token tokens hGap hKind hForm hPlace more =>
      rw [List.append_assoc before] at hPlace more
      rw [← List.append_assoc]
      exact .token (.comment hBody hEnd hGap) hKind hForm hPlace more

theorem startsComment_cases {c : Char} {rest : List Char} (hComment : startsComment c rest = true) :
    ∃ more, c = '/' ∧ rest = '/' :: more := by
  rw [startsComment, Bool.and_eq_true, decide_eq_true_eq, decide_eq_true_eq] at hComment
  obtain ⟨more, hRest⟩ := List.head?_eq_some_iff.1 hComment.2
  exact ⟨more, hComment.1, hRest⟩

theorem lineFeed_notMem_takeWhile (text : List Char) : '\n' ∉ text.takeWhile isCommentChar := by
  intro hMem
  exact absurd (List.all_eq_true.1 List.all_takeWhile _ hMem) (by decide)

/-- A comment ends before a line feed or with the text. -/
theorem head?_dropWhile_isCommentChar (text : List Char) :
    ∀ c ∈ (text.dropWhile isCommentChar).head?, c = '\n' := by
  intro c hHead
  have hStop := head?_dropWhile_all isCommentChar text
  rw [hHead] at hStop
  simpa [isCommentChar] using hStop

/-- The tokens that are read from a text make it up, each of them at its place. -/
theorem Lexed.decomposes {position : Position} (lexed : Lexed position text tokens)
    (hPosition : position = Position.start.advance before) : Decomposes before text tokens := by
  induction lexed generalizing before with
  | final position =>
      rw [Position.advance_start] at hPosition
      subst hPosition
      refine .final .nil rfl rfl ?_
      rw [List.append_nil]
      exact ⟨rfl, rfl, by rw [Token.endColumn, Token.sourceText]; simp⟩
  | gap hGap _ ih =>
      refine Decomposes.char hGap (ih ?_)
      rw [Position.advance_append, ← hPosition]
      rfl
  | @comment position _ _ _ _ hComment _ ih =>
      obtain ⟨more, rfl, rfl⟩ := startsComment_cases hComment
      have hTake : ('/' :: more).takeWhile isCommentChar = '/' :: more.takeWhile isCommentChar := rfl
      have hDrop : ('/' :: more).dropWhile isCommentChar = more.dropWhile isCommentChar := rfl
      rw [hTake, hDrop] at ih
      have hNext : position.advance ('/' :: '/' :: more.takeWhile isCommentChar) =
          Position.start.advance (before ++ '/' :: '/' :: more.takeWhile isCommentChar) := by
        rw [Position.advance_append, ← hPosition]
      have hText := Decomposes.comment (lineFeed_notMem_takeWhile more)
        (head?_dropWhile_isCommentChar more) (ih hNext)
      rwa [List.cons_append, List.cons_append, List.takeWhile_append_dropWhile] at hText
  | @lexeme position _ _ lexeme _ _ _ hLexeme _ ih =>
      obtain ⟨hAdmits, hEof, -, hText⟩ := lexeme?_shape hLexeme
      have hEnd := lexeme?_advance hLexeme position
      have hSource := lexeme.sourceText_toList position.line position.column
      have hNext : position.advance lexeme.source =
          Position.start.advance (before ++ lexeme.source) := by
        rw [Position.advance_append, ← hPosition]
      rw [hPosition, ← Position.advance_append, Position.advance_start, Position.advance_start] at hEnd
      rw [hText, ← List.nil_append (lexeme.source ++ lexeme.rest), ← hSource]
      refine .token .nil hEof (by simpa [Token.WellFormed] using hAdmits) ?_ ?_
      · rw [List.append_nil, hPosition, Position.advance_start]
        refine ⟨rfl, rfl, ?_⟩
        rw [Lexeme.sourceText_toList]
        exact (congrArg Position.column hEnd).symm
      · rw [List.append_nil, hSource]
        exact ih hNext

end

/-! ### What is made up so is read -/

/-- A text can be made up of source texts of tokens and gaps. -/
def Splittable (text : List Char) : Prop := ∃ symbols, Splits text symbols

/-- What a text that can be made up so begins with: a character of a gap, a comment, or a token. -/
theorem Splittable.cases {c : Char} {text : List Char} (splittable : Splittable (c :: text)) :
    (isGapChar c = true ∧ Splittable text) ∨
      (∃ body rest, c = '/' ∧ text = '/' :: body ++ rest ∧ '\n' ∉ body ∧
        (∀ d ∈ rest.head?, d = '\n') ∧ Splittable rest) ∨
      ∃ (symbol : Symbol) (rest : List Char),
        symbol.WellFormed ∧ c :: text = symbol.source ++ rest ∧ Splittable rest := by
  obtain ⟨symbols, splits⟩ := splittable
  generalize hText : c :: text = whole at splits
  cases splits with
  | final hGap =>
      cases hGap with
      | nil => cases hText
      | char hChar more =>
          cases hText
          exact Or.inl ⟨hChar, [], .final more⟩
      | @comment body gap hBody hEnd more =>
          cases hText
          refine Or.inr (Or.inl ⟨body, gap, rfl, rfl, hBody, ?_, [], .final more⟩)
          simpa using hEnd
  | @symbol gap rest symbol symbols hGap hForm more =>
      cases hGap with
      | nil => exact Or.inr (Or.inr ⟨symbol, rest, hForm, rfl, symbols, more⟩)
      | char hChar hMore =>
          cases hText
          exact Or.inl ⟨hChar, symbol :: symbols, .symbol hMore hForm more⟩
      | @comment body gap hBody hEnd hMore =>
          cases hText
          exact Or.inr (Or.inl ⟨body, gap ++ (symbol.source ++ rest), rfl,
            List.append_assoc ('/' :: body) gap _, hBody, hEnd, symbol :: symbols,
            .symbol hMore hForm more⟩)

/-- A token in front of a text that can be made up of tokens and gaps makes such a text. The two
may run together into one token. -/
theorem Splittable.symbol {symbol : Symbol} (hForm : symbol.WellFormed) {rest : List Char}
    (splittable : Splittable rest) : Splittable (symbol.source ++ rest) := by
  obtain ⟨symbols, splits⟩ := splittable
  exact ⟨symbol :: symbols, .symbol .nil hForm splits⟩

/-- Only words and numbers go on into the next character. -/
theorem Kind.extendsTo_cases {kind : Kind} {c : Char} (hExtends : kind.extendsTo c = true) :
    (kind = .ident ∧ isIdentChar c = true) ∨ (kind = .number ∧ isNumberChar c = true) := by
  cases kind with
  | ident => exact Or.inl ⟨rfl, hExtends⟩
  | number => exact Or.inr ⟨rfl, hExtends⟩
  | _ => cases hExtends

theorem Kind.ne_of_extendsTo {kind : Kind} {c d : Char} (hExtends : kind.extendsTo c = true)
    (hIdent : isIdentChar d = false) (hNumber : isNumberChar d = false) : c ≠ d := by
  rintro rfl
  rcases Kind.extendsTo_cases hExtends with ⟨-, hChar⟩ | ⟨-, hChar⟩
  · rw [hIdent] at hChar
    cases hChar
  · rw [hNumber] at hChar
    cases hChar

/-- A character that goes on a token is none of a gap. -/
theorem Kind.isGapChar_eq_false_of_extendsTo {kind : Kind} {c : Char}
    (hExtends : kind.extendsTo c = true) : isGapChar c = false := by
  have hMark : c ≠ '\ufeff' := Kind.ne_of_extendsTo hExtends (by decide +kernel) (by decide +kernel)
  have hBlank : isBlank c = false := by
    rcases Kind.extendsTo_cases hExtends with ⟨-, hChar⟩ | ⟨-, hChar⟩
    · exact isBlank_eq_false_of_isIdentChar hChar
    · exact isBlank_eq_false_of_isNumberChar hChar
  simp [isGapChar, hBlank, hMark]

/-- A character that goes on a token is no mark. -/
theorem punctuation?_eq_none_of_extendsTo {kind : Kind} {c : Char}
    (hExtends : kind.extendsTo c = true) : punctuation? c = none := by
  unfold punctuation?
  split
  case h_8 => rfl
  all_goals
    rcases Kind.extendsTo_cases hExtends with ⟨-, hChar⟩ | ⟨-, hChar⟩ <;>
      exact absurd hChar (by decide)

/-- A token that begins with a character that another one would go on with is a word or a number
itself, and where that other one is a number, it is a number. -/
theorem Symbol.WellFormed.of_extendsTo {symbol : Symbol} (hForm : symbol.WellFormed) {kind : Kind}
    {c : Char} {cs : List Char} (hSource : symbol.source = c :: cs)
    (hExtends : kind.extendsTo c = true) :
    cs.all symbol.kind.extendsTo = true ∧
      (symbol.kind = .number ∨ (symbol.kind = .ident ∧ kind = .ident)) := by
  obtain ⟨own, value⟩ := symbol
  obtain ⟨hAdmits, hEof⟩ := hForm
  simp only at hAdmits hEof ⊢
  rcases Kind.admits_cases hAdmits with
    ⟨rfl, -⟩ | ⟨rfl, hWord⟩ | ⟨rfl, hWord⟩ | ⟨hEnd, -⟩ | ⟨d, hValue, hMark⟩
  · have hQuote : c = '"' := (List.cons.inj hSource).1.symm
    exact absurd hQuote (Kind.ne_of_extendsTo hExtends (by decide) (by decide))
  · obtain ⟨d, ds, hChars, hStart, hMore⟩ := isWord_cases hWord
    obtain ⟨rfl, rfl⟩ := List.cons.inj (hChars.symm.trans hSource)
    refine ⟨hMore, Or.inr ⟨rfl, ?_⟩⟩
    rcases Kind.extendsTo_cases hExtends with ⟨hKind, -⟩ | ⟨-, hChar⟩
    · exact hKind
    · have hNumber : isNumberStart d = true := by
        simp only [isNumberChar, isNumberStart, Bool.or_eq_true] at hChar ⊢
        tauto
      rw [isNumberStart_eq_false_of_isIdentStart hStart] at hNumber
      cases hNumber
  · obtain ⟨d, ds, hChars, hStart, hMore⟩ := isWord_cases hWord
    obtain ⟨rfl, rfl⟩ := List.cons.inj (hChars.symm.trans hSource)
    exact ⟨hMore, Or.inl rfl⟩
  · exact absurd hEnd hEof
  · have hString : own ≠ .string := (punctuation?_admits hMark).2.2.1
    have hOwn : (⟨own, value⟩ : Symbol).source = value.toList := by
      unfold Symbol.source
      split
      · next h => exact absurd h hString
      · rfl
    rw [hOwn, hValue] at hSource
    obtain ⟨rfl, rfl⟩ := List.cons.inj hSource
    rw [punctuation?_eq_none_of_extendsTo hExtends] at hMark
    cases hMark

/-- A number can begin with any character that numbers go on with. -/
theorem Symbol.wellFormed_number {value : List Char} (hSome : value ≠ [])
    (hValue : value.all isNumberChar = true) :
    (⟨.number, String.ofList value⟩ : Symbol).WellFormed := by
  obtain ⟨c, cs, rfl⟩ := List.exists_cons_of_ne_nil hSome
  rw [List.all_cons, Bool.and_eq_true] at hValue
  have hStart : isNumberStart c = true := by
    have hChar := hValue.1
    simp only [isNumberChar, isNumberStart, Bool.or_eq_true] at hChar ⊢
    tauto
  refine ⟨?_, by simp⟩
  simp [Kind.admits, isWord, hStart, hValue.2]

/-- What is left of a text behind the longest continuation of a token can be made up on its own. The
token of which the continuation ends in the middle is a number, which a word stops at its point; the
rest of that number is a number again. -/
theorem Splittable.of_continuation {kind : Kind} {run rest : List Char}
    (hRun : run.all kind.extendsTo = true) (hEnds : kind.endsBefore rest = true)
    (splittable : Splittable (run ++ rest)) : Splittable rest := by
  induction hLength : run.length using Nat.strongRecOn generalizing run with
  | ind length ih =>
      cases run with
      | nil => exact splittable
      | cons c run =>
          rw [List.all_cons, Bool.and_eq_true] at hRun
          obtain ⟨hChar, hMore⟩ := hRun
          rcases splittable.cases with
            ⟨hGap, -⟩ | ⟨_, _, hSlash, -⟩ | ⟨symbol, back, hForm, hText, hBack⟩
          · rw [Kind.isGapChar_eq_false_of_extendsTo hChar] at hGap
            cases hGap
          · exact absurd hSlash
              (Kind.ne_of_extendsTo hChar (by decide) (by decide))
          · obtain ⟨d, ds, hSource⟩ := hForm.source_cons
            rw [hSource, List.cons_append, List.cons.injEq] at hText
            obtain ⟨rfl, hText⟩ := hText
            obtain ⟨hOwn, hKind⟩ := hForm.of_extendsTo hSource hChar
            rcases List.append_eq_append_iff.1 hText with ⟨more, rfl, rfl⟩ | ⟨more, rfl, rfl⟩
            · rw [List.all_append, Bool.and_eq_true] at hOwn
              by_cases hNone : more = []
              · rwa [hNone]
              rcases hKind with hNumber | ⟨hIdent, rfl⟩
              · rw [hNumber] at hOwn
                have hSplit := hBack.symbol (Symbol.wellFormed_number hNone hOwn.2)
                rwa [Symbol.source, String.toList_ofList] at hSplit
              · obtain ⟨e, more, rfl⟩ := List.exists_cons_of_ne_nil hNone
                rw [hIdent, List.all_cons, Bool.and_eq_true] at hOwn
                simp [Kind.endsBefore, hOwn.2.1] at hEnds
            · rw [List.all_append, Bool.and_eq_true] at hMore
              refine ih more.length ?_ hMore.2 hBack rfl
              rw [← hLength, List.length_cons, List.length_append]
              omega

theorem isWord_append {start more : Char → Bool} {value run : List Char}
    (hWord : isWord start more value = true) (hRun : run.all more = true) :
    isWord start more (value ++ run) = true := by
  obtain ⟨c, cs, rfl, hStart, hMore⟩ := isWord_cases hWord
  simp only [List.cons_append, isWord, List.all_append, hStart, hMore, hRun, Bool.and_self]

/-- A token goes on with any characters that its class goes on with. -/
theorem Symbol.WellFormed.extend {symbol : Symbol} (hForm : symbol.WellFormed) {run : List Char}
    (hRun : run.all symbol.kind.extendsTo = true) :
    ∃ longer : Symbol, longer.WellFormed ∧ longer.kind = symbol.kind ∧
      longer.source = symbol.source ++ run := by
  cases run with
  | nil => exact ⟨symbol, hForm, rfl, (List.append_nil _).symm⟩
  | cons c run =>
      obtain ⟨kind, value⟩ := symbol
      have hChar : kind.extendsTo c = true := List.all_eq_true.1 hRun c (List.mem_cons_self ..)
      have hString : (value ++ String.ofList (c :: run)).toList = value.toList ++ c :: run := by
        rw [String.toList_append, String.toList_ofList]
      rcases Kind.extendsTo_cases hChar with ⟨rfl, -⟩ | ⟨rfl, -⟩
      · refine ⟨⟨.ident, value ++ String.ofList (c :: run)⟩, ⟨?_, nofun⟩, rfl, hString⟩
        simp only [hString]
        exact isWord_append hForm.admits hRun
      · refine ⟨⟨.number, value ++ String.ofList (c :: run)⟩, ⟨?_, nofun⟩, rfl, hString⟩
        simp only [hString]
        exact isWord_append hForm.admits hRun

/-- A token in front of a text that can be made up so can be taken as long as possible. -/
theorem Splittable.longest {symbol : Symbol} (hForm : symbol.WellFormed) {rest : List Char}
    (splittable : Splittable rest) :
    ∃ (longer : Symbol) (rest' : List Char), longer.WellFormed ∧
      symbol.source ++ rest = longer.source ++ rest' ∧ longer.kind.endsBefore rest' = true ∧
        Splittable rest' := by
  have hRun : (rest.takeWhile symbol.kind.extendsTo).all symbol.kind.extendsTo = true :=
    List.all_takeWhile
  have hEnds : symbol.kind.endsBefore (rest.dropWhile symbol.kind.extendsTo) = true :=
    head?_dropWhile_all symbol.kind.extendsTo rest
  obtain ⟨longer, hLonger, hKind, hSource⟩ := hForm.extend hRun
  refine ⟨longer, rest.dropWhile symbol.kind.extendsTo, hLonger, ?_, ?_, ?_⟩
  · rw [hSource, List.append_assoc, List.takeWhile_append_dropWhile]
  · rw [hKind]
    exact hEnds
  · rw [← List.takeWhile_append_dropWhile (p := symbol.kind.extendsTo) (l := rest)] at splittable
    exact splittable.of_continuation hRun hEnds

/-- A comment is passed over up to the end of its line or of the text. -/
theorem tokensFrom_commentBody (position : Position) {body rest : List Char} (hBody : '\n' ∉ body)
    (hEnd : ∀ c ∈ rest.head?, c = '\n') :
    tokensFrom position ('/' :: '/' :: body ++ rest) =
      tokensFrom (position.advance ('/' :: '/' :: body)) rest := by
  have hGap : isGapChar '/' = false := by decide
  have hChars : ('/' :: body).all isCommentChar = true := all_isCommentChar (by simpa using hBody)
  have hStop : rest.head?.all (fun c => !isCommentChar c) = true := by
    cases rest with
    | nil => rfl
    | cons c rest =>
        rw [hEnd c rfl]
        rfl
  obtain ⟨hTake, hDrop⟩ := takeWhile_append_of_endsBefore rest hChars hStop
  rw [List.cons_append, tokensFrom_comment position hGap rfl, hTake, hDrop]

/-- A text that can be made up of source texts of tokens and gaps is split into tokens. -/
theorem Splittable.tokensFrom {text : List Char} (splittable : Splittable text)
    (position : Position) : ∃ tokens, Script.tokensFrom position text = .ok tokens := by
  induction hLength : text.length using Nat.strongRecOn generalizing text position with
  | ind length ih =>
      cases text with
      | nil => exact ⟨_, tokensFrom_nil position⟩
      | cons c text =>
          rcases splittable.cases with
            ⟨hGap, hRest⟩ | ⟨body, rest, rfl, rfl, hBody, hEnd, hRest⟩ |
              ⟨symbol, rest, hForm, hText, hRest⟩
          · rw [tokensFrom_gap position text hGap]
            exact ih text.length (by rw [← hLength]; exact Nat.lt_succ_self _) hRest _ rfl
          · rw [← List.cons_append, tokensFrom_commentBody position hBody hEnd]
            refine ih rest.length ?_ hRest _ rfl
            rw [← hLength, List.length_cons, List.length_append, List.length_cons]
            omega
          · obtain ⟨longer, rest', hLonger, hSame, hEnds, hRest'⟩ := hRest.longest hForm
            obtain ⟨d, ds, hSource⟩ := hLonger.source_cons
            have hShort : rest'.length < length := by
              rw [← hLength, hText, hSame, hSource, List.length_append, List.length_cons]
              omega
            obtain ⟨tokens, hTokens⟩ :=
              ih rest'.length hShort hRest' (position.advance longer.source) rfl
            rw [hText, hSame, tokensFrom_symbol position hLonger hEnds, hTokens]
            exact ⟨_, rfl⟩

/-- Splitting a script into tokens is lossless. The text is made up of the source texts of its tokens,
each at its place, with gaps before, between and behind them; and it is refused if and only if it
cannot be made up so from any tokens. -/
theorem tokenize_lossless (text : String) :
    (∀ tokens, tokenize text = .ok tokens → Decomposes [] text.toList tokens) ∧
      ((∃ fault, tokenize text = .error fault) ↔ ¬∃ symbols, Splits text.toList symbols) := by
  have hRead : ∀ tokens, tokenize text = .ok tokens → Decomposes [] text.toList tokens :=
    fun tokens hTokens => (tokensFrom_lexed hTokens).decomposes rfl
  refine ⟨hRead, ?_, ?_⟩
  · rintro ⟨fault, hFault⟩ ⟨symbols, splits⟩
    obtain ⟨tokens, hTokens⟩ := Splittable.tokensFrom ⟨symbols, splits⟩ Position.start
    rw [tokenize, hTokens] at hFault
    cases hFault
  · intro hNone
    cases hTokens : tokenize text with
    | error fault => exact ⟨fault, rfl⟩
    | ok tokens => exact absurd ⟨_, (hRead tokens hTokens).splits⟩ hNone

/-- A comment, a sign of its own, a point that a word stops at, and a line feed between tokens; and a
string that is not closed. -/
theorem tokenize_lossless_sample :
    (∃ tokens, tokenize "Give(-, a1.5) // twice\n \"x\";" = .ok tokens ∧
      Decomposes [] "Give(-, a1.5) // twice\n \"x\";".toList tokens) ∧
    (∃ fault, tokenize "Give(\"x)" = .error fault) ∧ ¬∃ symbols, Splits "Give(\"x)".toList symbols := by
  have hTokens : tokenize "Give(-, a1.5) // twice\n \"x\";" =
      .ok ((tokenize "Give(-, a1.5) // twice\n \"x\";").toOption.getD []) := by decide +kernel
  have hFault : tokenize "Give(\"x)" = .error ⟨.unterminatedString, 1, 6⟩ := by decide +kernel
  exact ⟨⟨_, hTokens, (tokenize_lossless _).1 _ hTokens⟩, ⟨_, hFault⟩,
    (tokenize_lossless _).2.1 ⟨_, hFault⟩⟩

end QuestScript.Script

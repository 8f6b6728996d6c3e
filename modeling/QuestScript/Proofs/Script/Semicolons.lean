import QuestScript.Proofs.Script.Lookahead
import QuestScript.Proofs.Script.Decomposition
/-!
Taking a semicolon out of a script. A space in its place leaves the other tokens where they are; and
a call that it ended is read from the same tokens again, unless a word comes next that is taken for
its goto clause.
-/

namespace QuestScript.Script

open QuestScript.Text

/-! ### The text -/

/-- What is read behind some text does not begin where that text begins. -/
theorem Token.BeginsFrom.place_ne {position : Position} {c : Char} {cs : List Char} {token : Token}
    (hBegins : token.BeginsFrom (position.advance (c :: cs))) :
    position ≠ ⟨token.line, token.column⟩ := by
  have hBehind : token.BeginsFrom ((position.next c).advance cs) := hBegins
  have hApart := hBehind.of_advance.of_next.2
  rintro rfl
  simp at hApart

theorem Position.eq_nil_of_advance_eq {position : Position} {cs : List Char}
    (hPlace : position.advance cs = position) : cs = [] := by
  cases cs with
  | nil => rfl
  | cons c cs =>
      have hBegins : Token.BeginsFrom (position.advance (c :: cs))
          ⟨.eof, "", position.line, position.column⟩ := by
        rw [hPlace]
        exact Or.inr ⟨rfl, Nat.le_refl _⟩
      exact absurd rfl hBegins.place_ne

/-- No token that is read behind a text stands within that text. -/
theorem Lexed.notMem {position : Position} {before more rest : List Char} {c : Char}
    {tokens : List Token}
    (lexed : Lexed (position.advance (before ++ c :: more)) rest tokens)
    {token : Token} (hPlace : position.advance before = ⟨token.line, token.column⟩) :
    token ∉ tokens := by
  intro hMem
  have hBegins := lexed.begins token hMem
  rw [Position.advance_append] at hBegins
  exact hBegins.place_ne hPlace

/-- A token is read from its text again, in front of any text where it ends. -/
theorem tokensFrom_source (position : Position) {c : Char} {rest rest' : List Char}
    {lexeme : Lexeme} (hLexeme : lexeme? c rest = some lexeme)
    (hEnds : lexeme.kind.endsBefore rest' = true) :
    tokensFrom position (lexeme.source ++ rest') =
      (tokensFrom (position.advance lexeme.source) rest').map
        (⟨lexeme.kind, String.ofList lexeme.value, position.line, position.column⟩ :: ·) := by
  obtain ⟨hAdmits, hEof, -, -⟩ := lexeme?_shape hLexeme
  have hForm : (⟨lexeme.kind, String.ofList lexeme.value⟩ : Symbol).WellFormed :=
    ⟨by simpa using hAdmits, hEof⟩
  have hSource : (⟨lexeme.kind, String.ofList lexeme.value⟩ : Symbol).source = lexeme.source := by
    obtain ⟨kind, value, rest⟩ := lexeme
    cases kind <;> simp [Symbol.source, Lexeme.source]
  rw [← hSource]
  exact tokensFrom_symbol position hForm hEnds

/-- A token that ends before a semicolon ends before a space in its place. -/
theorem Kind.endsBefore_space {kind : Kind} {before after : List Char}
    (hEnds : kind.endsBefore (before ++ ';' :: after) = true) :
    kind.endsBefore (before ++ ' ' :: after) = true := by
  cases before with
  | nil => exact delimited_cons after (by decide) (by decide) kind
  | cons c before => exact hEnds

/-- A comment ends at its line feed, whatever stands behind it. -/
theorem tokensFrom_commentLine (position : Position) {c : Char} {line rest : List Char}
    (hGap : isGapChar c = false) (hComment : startsComment c (line ++ '\n' :: rest) = true)
    (hLine : '\n' ∉ line) (rest' : List Char) :
    tokensFrom position (c :: (line ++ '\n' :: rest')) =
      tokensFrom (position.advance (c :: line)) ('\n' :: rest') := by
  have hComment' : startsComment c (line ++ '\n' :: rest') = true := by
    cases line <;> exact hComment
  obtain ⟨hTake, hDrop⟩ := comment_append_lineFeed hLine rest'
  rw [tokensFrom_comment position hGap hComment', hTake, hDrop]

/-- A comment does not end at a semicolon. -/
theorem takeWhile_comment_semicolon {before after : List Char} (hBefore : '\n' ∉ before) :
    (before ++ ';' :: after).takeWhile isCommentChar =
      before ++ ';' :: after.takeWhile isCommentChar := by
  have hMore : (before ++ [';']).all isCommentChar = true :=
    all_isCommentChar (by simpa using hBefore)
  rw [List.append_cons, List.takeWhile_append_of_pos (List.all_eq_true.1 hMore)]
  simp

/-- A comment in front of a semicolon that is read as a token ends before it. -/
theorem Lexed.comment_endsBefore {position : Position} {c : Char} {before after : List Char}
    {tokens : List Token} {semicolon : Token}
    (lexed : Lexed (position.advance (c :: (before ++ ';' :: after).takeWhile isCommentChar))
      ((before ++ ';' :: after).dropWhile isCommentChar) tokens)
    (hMem : semicolon ∈ tokens)
    (hPlace : position.advance (c :: before) = ⟨semicolon.line, semicolon.column⟩) :
    '\n' ∈ before := by
  by_contra hFeed
  rw [takeWhile_comment_semicolon hFeed, ← List.cons_append] at lexed
  exact lexed.notMem hPlace hMem

/-- The first token of a text with a semicolon in it is this semicolon, or ends before it. -/
theorem Lexed.lexeme_cases {position : Position} {c : Char} {text before after : List Char}
    {lexeme : Lexeme} {first semicolon : Token} {tokens front back : List Token}
    (hLexeme : lexeme? c text = some lexeme) (hText : before ++ ';' :: after = c :: text)
    (lexed : Lexed (position.advance lexeme.source) lexeme.rest tokens)
    (hAll : front ++ semicolon :: back = first :: tokens)
    (hPlace : position.advance before = ⟨semicolon.line, semicolon.column⟩)
    (hFirst : position = ⟨first.line, first.column⟩) :
    (before = [] ∧ front = []) ∨ ∃ more front', before = lexeme.source ++ more ∧
      lexeme.rest = more ++ ';' :: after ∧ front = first :: front' ∧
      tokens = front' ++ semicolon :: back := by
  obtain ⟨-, -, -, hShape⟩ := lexeme?_shape hLexeme
  cases front with
  | nil =>
      cases hAll
      exact Or.inl ⟨Position.eq_nil_of_advance_eq (hPlace.trans hFirst.symm), rfl⟩
  | cons token front =>
      rw [List.cons_append, List.cons.injEq] at hAll
      obtain ⟨rfl, rfl⟩ := hAll
      rcases append_eq_append_cons (hShape.symm.trans hText.symm) with
        ⟨more, rfl, hMore⟩ | ⟨more, hSource, -⟩
      · exact Or.inr ⟨more, front, rfl, hMore, rfl, rfl⟩
      · rw [hSource] at lexed
        exact absurd (by simp) (lexed.notMem hPlace)

/-- A space in the place of a semicolon takes its token away and leaves the others as they are. -/
theorem Lexed.space {position : Position} {before after : List Char} {front back : List Token}
    {semicolon : Token}
    (lexed : Lexed position (before ++ ';' :: after) (front ++ semicolon :: back))
    (hPlace : position.advance before = ⟨semicolon.line, semicolon.column⟩) :
    Script.tokensFrom position (before ++ ' ' :: after) = .ok (front ++ back) := by
  generalize hText : before ++ ';' :: after = text at lexed
  generalize hAll : front ++ semicolon :: back = tokens at lexed
  induction lexed generalizing before front with
  | final => simp at hText
  | @gap position _ _ _ hGap _ ih =>
      cases before with
      | nil =>
          cases hText
          cases hGap
      | cons d before =>
          rw [List.cons_append, List.cons.injEq] at hText
          obtain ⟨rfl, rfl⟩ := hText
          rw [List.cons_append, tokensFrom_gap position _ hGap]
          exact ih hPlace rfl hAll
  | @comment position _ _ _ hGap hComment more ih =>
      cases before with
      | nil =>
          cases hText
          cases hComment
      | cons d before =>
          rw [List.cons_append, List.cons.injEq] at hText
          obtain ⟨rfl, rfl⟩ := hText
          have hFeed := more.comment_endsBefore (by simp [← hAll]) hPlace
          obtain ⟨line, before, rfl, hLine⟩ := List.eq_append_cons_of_mem hFeed
          simp only [List.append_assoc, List.cons_append] at hComment ih ⊢
          obtain ⟨hTake, hDrop⟩ := comment_append_lineFeed hLine (before ++ ';' :: after)
          rw [hTake, hDrop] at ih
          rw [tokensFrom_commentLine position hGap hComment hLine]
          have hBehind : (position.advance (d :: line)).advance ('\n' :: before) =
              ⟨semicolon.line, semicolon.column⟩ := by
            rw [← Position.advance_append]
            exact hPlace
          exact ih hBehind rfl hAll
  | @lexeme position _ _ _ _ _ _ hLexeme more ih =>
      rcases lexeme_cases hLexeme hText more hAll hPlace rfl with
        ⟨rfl, rfl⟩ | ⟨more', front, rfl, hMore, rfl, rfl⟩
      · cases hAll
        cases hText
        rw [(lexeme?_punctuation (c := ';') rfl after).2.2] at hLexeme
        cases hLexeme
        rw [List.nil_append, tokensFrom_gap position _ (by decide)]
        exact more.tokensFrom
      · have hEnds := (lexeme?_shape hLexeme).2.2.1
        rw [hMore] at hEnds
        rw [Position.advance_append] at hPlace
        rw [List.append_assoc, tokensFrom_source position hLexeme (Kind.endsBefore_space hEnds),
          ih hPlace hMore.symm rfl]
        rfl

/-! ### The call -/

/-- Without its semicolon, a call without a goto clause takes the next token for the keyword of
one. -/
def Call.TakesGoto (call : Call) (next : Token) : Prop :=
  call.goto = none ∧ next.isKeyword "goto" = true

instance (call : Call) (next : Token) : Decidable (call.TakesGoto next) :=
  inferInstanceAs (Decidable (_ ∧ _))

/-- A call is read without its semicolon, unless it takes the next token for its goto clause. -/
theorem readCall_open {call : Call} {args goto : List Token}
    (spelledArgs : ArgumentListSpelled args call.args) (spelledGoto : GotoSpelled goto call.goto)
    {rest : List Token} (hTakes : ¬call.TakesGoto (nextToken rest)) :
    readCall call.name (args ++ (goto ++ rest)) =
      .ok ({ call with semicolon := startsSemicolon rest }, skipSemicolon rest) := by
  obtain ⟨name, values, target, semicolon⟩ := call
  have hRead : readGoto name (goto ++ rest) = .ok (target, rest) := by
    cases spelledGoto with
    | absent => exact readGoto_absent (Bool.eq_false_iff.2 fun hKeyword => hTakes ⟨rfl, hKeyword⟩)
    | clause hKeyword hTarget hLine => simp [readGoto, hKeyword, hTarget, hLine]
  rw [readCall, spelledArgs.read]
  simp only [hRead]

/-- A call that a semicolon ends is spelled up to this semicolon. -/
theorem readCall_ended {name : Token} {tokens back : List Token} {call : Call}
    (hRead : readCall name tokens = .ok (call, back)) (hEnded : call.semicolon = true) :
    call.name = name ∧ ∃ args goto semicolon, tokens = args ++ (goto ++ semicolon :: back) ∧
      ArgumentListSpelled args call.args ∧ GotoSpelled goto call.goto := by
  obtain ⟨args, goto, mark, rfl, hName, spelledArgs, spelledGoto, spelledEnd⟩ :=
    readCall_spelled hRead
  rw [hEnded] at spelledEnd
  cases spelledEnd with
  | @present semicolon _ =>
      exact ⟨hName, args, goto, semicolon, by simp, spelledArgs, spelledGoto⟩

/-- A call that a semicolon ends stands behind its name, or a keyword and its name, and is read from
whatever tokens stand there. -/
theorem step_call_ended {block : Section} {opener token : Token} {rest back : List Token}
    {call : Call} {scope : Scope}
    (hStep : step (.inside block opener) token rest = .event (.call call) scope back)
    (hEnded : call.semicolon = true) :
    scope = .inside block opener ∧ ∃ front args goto semicolon,
      rest = front ++ (args ++ (goto ++ semicolon :: back)) ∧
      ArgumentListSpelled args call.args ∧ GotoSpelled goto call.goto ∧
      ∀ tokens, step (.inside block opener) token (front ++ tokens) =
        .ofReading (.inside block opener) (callEvent (readCall call.name tokens)) := by
  cases stepInside_cases hStep with
  | @keywordCall name paren _ _ _ hKeyword hName hParen hRead =>
      obtain ⟨rfl, args, goto, semicolon, rfl, spelledArgs, spelledGoto⟩ :=
        readCall_ended hRead hEnded
      exact ⟨rfl, [call.name, paren], args, goto, semicolon, rfl, spelledArgs, spelledGoto,
        fun tokens => step_keyword_call hKeyword hName hParen⟩
  | @call paren _ _ _ hName hParen hRead =>
      obtain ⟨rfl, args, goto, semicolon, rfl, spelledArgs, spelledGoto⟩ :=
        readCall_ended hRead hEnded
      exact ⟨rfl, [paren], args, goto, semicolon, rfl, spelledArgs, spelledGoto,
        fun tokens => step_call hName hParen⟩
  | attr _ _ _ _ hRead =>
      obtain ⟨_, _, _, hEvent, _⟩ := readAttribute_eq_ok hRead
      cases hEvent

/-- A word goto at the start of a statement is the name of a call. -/
theorem lparen_of_goto_statement {block : Section} {opener token : Token} {rest : List Token}
    (hKeyword : token.isKeyword "goto" = true)
    (hFault : (outlineFrom (.inside block opener) (token :: rest)).fault = none) :
    (nextToken rest).kind = .lparen := by
  by_contra hParen
  have hKind := Token.isKeyword_kind hKeyword
  have hDesc := Token.isKeyword_eq_false hKeyword "desc" (by decide)
  have hAction := Token.isKeyword_eq_false hKeyword "action" (by decide)
  have hRule := Token.isKeyword_eq_false hKeyword "rule" (by decide)
  have hKey := Token.ofKey?_eq_none hKeyword (by decide)
  have hStep : step (.inside block opener) token rest =
      .failure (.atToken (.noStatement token block) token) := by
    simp [step, stepInside, hKind, hDesc, hAction, hRule, hParen, hKey]
  rw [outlineFrom_cons, hStep] at hFault
  cases hFault

/-! ### The script -/

/-- A token among those of a script is the semicolon of a call: the reading of the script comes to
that call in a block, and takes the tokens up to this one for it. -/
inductive EndsCall (front : List Token) (semicolon : Token) (back : List Token) (call : Call) :
    Prop where
  | intro {events : List Event} {block : Section} {opener token : Token} {rest : List Token}
      {scope : Scope}
      (reaches : Reaches .top (front ++ semicolon :: back) events (.inside block opener)
        (token :: rest))
      (hStep : step (.inside block opener) token rest = .event (.call call) scope back)
      (hEnded : call.semicolon = true)

/-- Without the semicolon of a call the same events are read, the call having the next semicolon if
one comes next; or the reading stops at a word that the call takes for its goto clause. -/
theorem EndsCall.outline {front back : List Token} {semicolon : Token} {call : Call}
    (ends : EndsCall front semicolon back call) :
    ∃ events scope,
      Outline.ofTokens (front ++ semicolon :: back) =
        ((outlineFrom scope back).cons (.call call)).prepend events ∧
      (¬call.TakesGoto (nextToken back) → Outline.ofTokens (front ++ back) =
        ((outlineFrom scope back).cons
          (.call { call with semicolon := startsSemicolon back })).prepend events) ∧
      (call.TakesGoto (nextToken back) → (outlineFrom scope back).fault = none →
        Outline.ofTokens (front ++ back) =
          ⟨events, some (.atToken (.noGotoTarget call.name.value) (nextToken back))⟩) := by
  obtain @⟨events, block, opener, token, rest, scope, reaches, hStep, hEnded⟩ := ends
  obtain ⟨consumed, hFront, hExchange⟩ := reaches.exchange
  obtain ⟨rfl, head, args, goto, mark, rfl, spelledArgs, spelledGoto, hRead⟩ :=
    step_call_ended hStep hEnded
  have hSplit : front ++ semicolon :: back =
      (consumed ++ token :: (head ++ (args ++ goto))) ++ mark :: back := by
    rw [hFront]
    simp
  obtain ⟨rfl, -⟩ := List.append_inj' hSplit rfl
  have hReaches := hExchange (token :: (head ++ (args ++ (goto ++ back)))) rfl
  have hRest : (consumed ++ token :: (head ++ (args ++ goto))) ++ back =
      consumed ++ token :: (head ++ (args ++ (goto ++ back))) := by simp
  refine ⟨events, .inside block opener, ?_, fun hTakes => ?_, fun hTakes hFault => ?_⟩
  · rw [Outline.ofTokens, reaches.outlineFrom, outlineFrom_cons, hStep]
  · have hStep' : step (.inside block opener) token (head ++ (args ++ (goto ++ back))) =
        .event (.call { call with semicolon := startsSemicolon back }) (.inside block opener)
          (skipSemicolon back) := by
      rw [hRead, readCall_open spelledArgs spelledGoto hTakes]
      rfl
    rw [hRest, Outline.ofTokens, hReaches.outlineFrom, outlineFrom_cons, hStep']
    simp only [outlineFrom_skipSemicolon]
  · obtain ⟨hNone, hKeyword⟩ := hTakes
    rw [hNone] at spelledGoto
    cases spelledGoto
    have hBack := nextToken_cons_tail back (by rw [Token.isKeyword_kind hKeyword]; nofun)
    rw [hBack] at hFault
    have hParen := lparen_of_goto_statement hKeyword hFault
    have hTail := nextToken_cons_tail back.tail (by rw [hParen]; nofun)
    have hSeam : readCall call.name (args ++ back) =
        .error (.atToken (.noGotoTarget call.name.value) (nextToken back)) := by
      rw [hBack, hTail]
      exact readCall_seam spelledArgs hKeyword hParen
    have hStep' : step (.inside block opener) token (head ++ (args ++ back)) =
        .failure (.atToken (.noGotoTarget call.name.value) (nextToken back)) := by
      rw [hRead, hSeam]
      rfl
    rw [hRest, Outline.ofTokens, hReaches.outlineFrom, List.nil_append, outlineFrom_cons, hStep']
    simp [Outline.prepend]

end QuestScript.Script

import QuestScript.Proofs.Script.Layout
import QuestScript.Proofs.Script.Spelling
/-!
Spelled parts of a script are read as what they spell. Where a part may end with nothing, such as a
missing semicolon, it depends on the token after it whether it is read so; these conditions are the
seams between the lines of a script.
-/

namespace QuestScript.Script

/-! ### Parts of events -/

theorem dropWhile_isArgument {more : List Token} (hMore : ∀ token ∈ more, token.isArgument = true)
    {close : Token} (hClose : close.isArgument = false) (rest : List Token) :
    (more ++ close :: rest).takeWhile Token.isArgument = more ∧
      (more ++ close :: rest).dropWhile Token.isArgument = close :: rest :=
  takeWhile_append_of_endsBefore (close :: rest) (List.all_eq_true.2 hMore) (by simp [hClose])

theorem isArgument_eq_false {token : Token} (hString : token.kind ≠ .string)
    (hIdent : token.kind ≠ .ident) (hNumber : token.kind ≠ .number) :
    token.isArgument = false := by
  simp [Token.isArgument, Token.isName, hString, hIdent, hNumber]

/-- One argument is read up to the token that ends it, which says whether there are more. -/
theorem readArguments_next {first ending : Token} {more : List Token}
    (hFirst : first.isArgument = true) (hMore : ∀ token ∈ more, token.isArgument = true)
    (hEnding : ending.isArgument = false) (call : Token) (rest : List Token) :
    readArguments call (first :: more ++ ending :: rest) =
      if ending.kind = .rparen then .ok ([Arg.ofTokens first more], rest)
      else if ending.kind = .comma then
        (readArguments call rest).map fun read => (Arg.ofTokens first more :: read.1, read.2)
      else .error (.atToken (.missingParen call.value) call) := by
  obtain ⟨hTake, hDrop⟩ := dropWhile_isArgument hMore hEnding rest
  rw [List.cons_append, readArguments, if_neg (by simp [hFirst])]
  simp only
  split
  · next hNil => simp [hDrop] at hNil
  · next token rest' hCons =>
      rw [hDrop, List.cons.injEq] at hCons
      obtain ⟨rfl, rfl⟩ := hCons
      rw [hTake]
      cases readArguments call rest <;> rfl

/-- Spelled arguments are read as what they spell, whatever comes after them. -/
theorem ArgumentsSpelled.read {tokens : List Token} {args : List Arg}
    (spelled : ArgumentsSpelled tokens args) (call : Token) (rest : List Token) :
    readArguments call (tokens ++ rest) = .ok (args, rest) := by
  induction spelled with
  | @last first close more hFirst hMore hClose =>
      have hEnding : close.isArgument = false :=
        isArgument_eq_false (by simp [hClose]) (by simp [hClose]) (by simp [hClose])
      rw [List.append_assoc, List.singleton_append,
        readArguments_next hFirst hMore hEnding, if_pos hClose]
  | @next first comma more tokens args hFirst hMore hComma _ ih =>
      have hEnding : comma.isArgument = false :=
        isArgument_eq_false (by simp [hComma]) (by simp [hComma]) (by simp [hComma])
      rw [List.append_assoc, @List.cons_append _ comma tokens, readArguments_next hFirst hMore hEnding,
        if_neg (by simp [hComma]), if_pos hComma, ih]
      rfl

/-- What spells an argument list is read as it. Reading is complete, not only sound. -/
theorem ArgumentListSpelled.read {tokens : List Token} {args : List Arg}
    (spelled : ArgumentListSpelled tokens args) (call : Token) (rest : List Token) :
    readArgumentList call (tokens ++ rest) = .ok (args, rest) := by
  cases spelled with
  | @empty close hClose =>
      change (if close.kind = .rparen then _ else _) = _
      rw [if_pos hClose]
      rfl
  | args spelled =>
      have hRead := spelled.read call rest
      have hFirst : ∃ first more, tokens = first :: more ∧ first.isArgument = true := by
        cases spelled with
        | last hFirst _ _ => exact ⟨_, _, rfl, hFirst⟩
        | next hFirst _ _ _ => exact ⟨_, _, rfl, hFirst⟩
      obtain ⟨first, more, rfl, hArgument⟩ := hFirst
      have hKind : first.kind ≠ .rparen := by
        intro hClose
        simp [Token.isArgument, Token.isName, hClose] at hArgument
      change (if first.kind = .rparen then _ else _) = _
      rw [if_neg hKind]
      exact hRead

theorem skipSemicolon_of_ne {tokens : List Token} (hNext : (nextToken tokens).kind ≠ .semi) :
    skipSemicolon tokens = tokens ∧ startsSemicolon tokens = false := by
  rcases skipSemicolon_cases tokens with ⟨token, rest, rfl, hKind, _⟩ | ⟨_, hSame⟩
  · exact absurd hKind hNext
  · exact hSame

theorem readGoto_absent {call : Token} {tokens : List Token}
    (hGoto : (nextToken tokens).isKeyword "goto" = false) :
    readGoto call tokens = .ok (none, tokens) := by
  cases tokens with
  | nil => rfl
  | cons token rest =>
      have hToken : token.isKeyword "goto" = false := hGoto
      simp [readGoto, hToken]

/-- A call without a goto clause, and with a semicolon or a token after it that is none. -/
theorem readCall_action {name : Token} {args : List Token} {values : List Arg}
    (spelled : ArgumentListSpelled args values) {semicolon rest : List Token} {ended : Bool}
    (hEnd : SemicolonSpelled semicolon ended)
    (hGoto : (nextToken (semicolon ++ rest)).isKeyword "goto" = false)
    (hNext : ended = false → (nextToken rest).kind ≠ .semi) :
    readCall name (args ++ (semicolon ++ rest)) = .ok (⟨name, values, none, ended⟩, rest) := by
  rw [readCall, spelled.read]
  simp only [readGoto_absent hGoto]
  cases hEnd with
  | absent =>
      obtain ⟨hSkip, hStarts⟩ := skipSemicolon_of_ne (hNext rfl)
      rw [List.nil_append, hSkip, hStarts]
  | present hKind => simp [startsSemicolon, nextToken, skipSemicolon, hKind]

/-- A call with a goto clause, and a token after it that is no semicolon. -/
theorem readCall_rule {name : Token} {args : List Token} {values : List Arg}
    (spelled : ArgumentListSpelled args values) {keyword target : Token} {rest : List Token}
    (hKeyword : keyword.isKeyword "goto" = true) (hTarget : target.isName = true)
    (hLine : target.line = keyword.line) (hNext : (nextToken rest).kind ≠ .semi) :
    readCall name (args ++ keyword :: target :: rest) =
      .ok (⟨name, values, some target.value, false⟩, rest) := by
  obtain ⟨hSkip, hStarts⟩ := skipSemicolon_of_ne hNext
  rw [readCall, spelled.read]
  simp only [readGoto, hKeyword, if_true, hTarget, hLine, decide_true, Bool.and_true, hSkip,
    hStarts]

/-- Where a call without a semicolon is followed by a call of the name goto, that name is read as
the keyword of a clause without a target. -/
theorem readCall_seam {name : Token} {args : List Token} {values : List Arg}
    (spelled : ArgumentListSpelled args values) {keyword paren : Token} {rest : List Token}
    (hKeyword : keyword.isKeyword "goto" = true) (hParen : paren.kind = .lparen) :
    readCall name (args ++ keyword :: paren :: rest) =
      .error (.atToken (.noGotoTarget name.value) keyword) := by
  have hTarget : paren.isName = false := by simp [Token.isName, hParen]
  rw [readCall, spelled.read]
  simp [readGoto, hKeyword, hTarget]

/-- No target begins with a number, so a weight is never taken from the next target. -/
theorem TargetsSpelled.nextToken_ne_number {tokens : List Token} {targets : List (String × Int)}
    (spelled : TargetsSpelled tokens targets) (rest : List Token) :
    (nextToken (tokens ++ rest)).kind ≠ .number := by
  cases spelled with
  | close hKind => simp [nextToken, hKind]
  | separator hKind _ => rcases hKind with hKind | hKind <;> simp [nextToken, hKind]
  | plain hName _ => exact Token.kind_ne_of_isName hName (by decide) (by decide)
  | weighted hName _ _ _ _ => exact Token.kind_ne_of_isName hName (by decide) (by decide)

theorem readWeight_absent {name : Token} {tokens : List Token}
    (hNext : (nextToken tokens).kind ≠ .number) : readWeight name tokens = .ok (1, tokens) := by
  cases tokens with
  | nil => rfl
  | cons token rest =>
      have hKind : token.kind ≠ .number := hNext
      rw [readWeight, if_neg hKind]

/-- A weight is read from a number of few enough digits that is not negative. -/
theorem readWeight_present {name weight : Token} {tokens : List Token}
    (hWeight : weight.kind = .number) (hFits : Integer.leadingInFault? weight.value = none)
    (hSign : 0 ≤ Integer.leadingD weight.value 1) :
    readWeight name (weight :: tokens) = .ok (Integer.leadingD weight.value 1, tokens) := by
  rw [readWeight, if_pos hWeight]
  simp only [hFits]
  rw [if_neg (by omega)]

/-- After a name and its weight, the reading of the targets goes on as it would without them. -/
theorem readTargets_name {opener name : Token} {block : String} {tokens rest : List Token}
    {weight : Int} (hName : name.isName = true)
    (hWeight : readWeight name tokens = .ok (weight, rest)) :
    readTargets opener block (name :: tokens) =
      (readTargets opener block rest).map fun read => ((name.value, weight) :: read.1, read.2) := by
  have hKind {kind : Kind} := @Token.kind_ne_of_isName name hName kind
  have hSeparator : ¬(name.kind = .semi ∨ name.kind = .comma) :=
    not_or.2 ⟨hKind (by decide) (by decide), hKind (by decide) (by decide)⟩
  rw [readTargets, if_neg (hKind (by decide) (by decide)), if_neg (hKind (by decide) (by decide)),
    if_neg (by simpa using hSeparator), if_pos hName]
  split
  · next h => simp [hWeight] at h
  · next h =>
      rw [hWeight] at h
      cases h
      cases readTargets opener block rest <;> rfl

/-- Spelled targets are read as what they spell, whatever comes after them. -/
theorem TargetsSpelled.read {tokens : List Token} {targets : List (String × Int)}
    (spelled : TargetsSpelled tokens targets) (opener : Token) (block : String)
    (rest : List Token) : readTargets opener block (tokens ++ rest) = .ok (targets, rest) := by
  induction spelled with
  | @close token hKind =>
      rw [List.singleton_append, readTargets, if_pos hKind]
  | @separator token tokens targets hKind _ ih =>
      have hBrace : token.kind ≠ .rbrace := by rcases hKind with h | h <;> simp [h]
      have hEof : token.kind ≠ .eof := by rcases hKind with h | h <;> simp [h]
      rw [List.cons_append, readTargets, if_neg hBrace, if_neg hEof, if_pos (by simpa using hKind),
        ih]
  | @plain name tokens targets hName spelled ih =>
      rw [List.cons_append,
        readTargets_name hName (readWeight_absent (spelled.nextToken_ne_number rest)), ih]
      rfl
  | @weighted name weight tokens targets hName hWeight hFits hSign _ ih =>
      rw [List.cons_append, List.cons_append,
        readTargets_name hName (readWeight_present hWeight hFits hSign), ih]
      rfl

/-! ### Steps -/

theorem Token.isKeyword_eq_false {token : Token} {word : String}
    (hKeyword : token.isKeyword word = true) (other : String) (hWord : word ≠ other) :
    token.isKeyword other = false := by
  simp only [Token.isKeyword, Bool.and_eq_true, decide_eq_true_eq] at hKeyword
  simp [Token.isKeyword, hKeyword.2, hWord]

/-- The key of an attribute outside of the blocks. -/
theorem step_key {key : Token} {rest : List Token} (hKey : key.isKeyBefore (nextToken rest) = true) :
    step .top key rest = .ofReading .top (readAttribute key rest) := by
  simp only [Token.isKeyBefore, Bool.and_eq_true, Bool.not_eq_true', decide_eq_true_eq] at hKey
  obtain ⟨⟨⟨⟨hKind, hParen⟩, hMain⟩, hState⟩, hRandom⟩ := hKey
  simp [step, stepTop, hKind, hParen, hMain, hState, hRandom]

/-- An attribute with a value after an equals sign. -/
theorem step_assigned {key equals value : Token} {rest : List Token} (hKey : key.kind = .ident)
    (hEquals : equals.kind = .equals) (hValue : value.isArgument = true)
    (hNext : (nextToken rest).kind ≠ .semi) :
    step .top key (equals :: value :: rest) =
      .event (.attr key (some (.ofToken value))) .top rest := by
  obtain ⟨hSkip, _⟩ := skipSemicolon_of_ne hNext
  have hRead : readAttribute key (equals :: value :: rest) =
      .ok (.attr key (some (.ofToken value)), rest) := by
    simp only [readAttribute, readValue, hEquals, if_true, hValue, hSkip]
  rw [step_key (by simp [Token.isKeyBefore, nextToken, Token.isName, hKey, hEquals]), hRead]
  rfl

theorem readValue_absent {key : Token} {tokens : List Token}
    (hEquals : (nextToken tokens).kind ≠ .equals)
    (hLoose : isLooseValue key (nextToken tokens) = false) :
    readValue key tokens = .ok (none, tokens) := by
  cases tokens with
  | nil => rfl
  | cons token rest =>
      simp only [nextToken, List.headD_cons] at hEquals hLoose
      simp [readValue, hEquals, hLoose]

/-- An attribute without a value, where the token after it is none and the key is not taken for the
keyword of a block. -/
theorem step_bare {key : Token} {rest : List Token} (hKey : key.kind = .ident)
    (hMain : (nextToken rest).kind ≠ .lbrace)
    (hBlock : key.isKeyword "state" = true ∨ key.isKeyword "random" = true →
      (nextToken rest).isName = false)
    (hParen : (nextToken rest).kind ≠ .lparen) (hEquals : (nextToken rest).kind ≠ .equals)
    (hLoose : isLooseValue key (nextToken rest) = false)
    (hNext : (nextToken rest).kind ≠ .semi) :
    step .top key rest = .event (.attr key none) .top rest := by
  obtain ⟨hSkip, _⟩ := skipSemicolon_of_ne hNext
  have hState : (key.isKeyword "state" && (nextToken rest).isName) = false := by
    rw [Bool.and_eq_false_imp]
    exact fun hKeyword => hBlock (Or.inl hKeyword)
  have hRandom : (key.isKeyword "random" && (nextToken rest).isName) = false := by
    rw [Bool.and_eq_false_imp]
    exact fun hKeyword => hBlock (Or.inr hKeyword)
  rw [step_key (by simp [Token.isKeyBefore, hKey, hMain, hState, hRandom, hParen]), readAttribute,
    readValue_absent hEquals hLoose]
  simp only [hSkip]
  rfl

/-- A main block is opened by its keyword and a brace. -/
theorem step_main {opener brace : Token} {rest : List Token}
    (hOpener : opener.isKeyword "main" = true) (hBrace : brace.kind = .lbrace) :
    step .top opener (brace :: rest) =
      .event (.openMain opener) (.inside .main opener) rest := by
  have hKind := Token.isKeyword_kind hOpener
  simp [step, stepTop, nextToken, hKind, hOpener, hBrace]

/-- The keyword of states before a name opens a state, or fails. -/
theorem step_stateName {opener name : Token} {rest : List Token}
    (hOpener : opener.isKeyword "state" = true) (hName : name.isName = true) :
    step .top opener (name :: rest) = openState opener name rest := by
  have hKind := Token.isKeyword_kind hOpener
  have hMain := Token.isKeyword_eq_false hOpener "main" (by decide)
  simp [step, stepTop, nextToken, hKind, hMain, hOpener, hName]

/-- A state is opened by its keyword, a name and a brace. -/
theorem step_state {opener name brace : Token} {rest : List Token}
    (hOpener : opener.isKeyword "state" = true) (hName : name.isName = true)
    (hBrace : brace.kind = .lbrace) :
    step .top opener (name :: brace :: rest) =
      .event (.openState opener name.value) (.inside (.state name.value) opener) rest := by
  rw [step_stateName hOpener hName]
  simp [openState, nextToken, hBrace]

/-- The keyword of random blocks before a name opens a random block, or fails. -/
theorem step_randomName {opener name : Token} {rest : List Token}
    (hOpener : opener.isKeyword "random" = true) (hName : name.isName = true) :
    step .top opener (name :: rest) = .ofReading .top (readRandom opener name rest) := by
  have hKind := Token.isKeyword_kind hOpener
  have hMain := Token.isKeyword_eq_false hOpener "main" (by decide)
  have hState := Token.isKeyword_eq_false hOpener "state" (by decide)
  simp [step, stepTop, nextToken, hKind, hMain, hState, hOpener, hName]

/-- A random block is taken in one step, from its keyword to its closing brace. -/
theorem step_random {opener name brace : Token} {tokens rest : List Token}
    {targets : List (String × Int)} (hOpener : opener.isKeyword "random" = true)
    (hName : name.isName = true) (hBrace : brace.kind = .lbrace)
    (spelled : TargetsSpelled tokens targets) :
    step .top opener (name :: brace :: (tokens ++ rest)) =
      .event (.random opener name.value targets) .top rest := by
  rw [step_randomName hOpener hName, readRandom, if_pos hBrace, spelled.read]
  rfl

/-- A description with the semicolon behind it, if there is one. -/
theorem step_desc_skip {block : Section} {opener keyword text : Token} {rest : List Token}
    (hKeyword : keyword.isKeyword "desc" = true) (hText : text.kind = .string) :
    step (.inside block opener) keyword (text :: rest) =
      .event (.desc keyword text.value) (.inside block opener) (skipSemicolon rest) := by
  have hKind := Token.isKeyword_kind hKeyword
  simp [step, stepInside, nextToken, hKind, hKeyword, hText]

/-- A description is taken with its keyword and its text, when no semicolon follows. -/
theorem step_desc {block : Section} {opener keyword text : Token} {rest : List Token}
    (hKeyword : keyword.isKeyword "desc" = true) (hText : text.kind = .string)
    (hNext : (nextToken rest).kind ≠ .semi) :
    step (.inside block opener) keyword (text :: rest) =
      .event (.desc keyword text.value) (.inside block opener) rest := by
  rw [step_desc_skip hKeyword hText, (skipSemicolon_of_ne hNext).1]

/-- A call is read by its arguments, whatever its name is. -/
theorem step_call {block : Section} {opener name paren : Token} {rest : List Token}
    (hName : name.kind = .ident) (hParen : paren.kind = .lparen) :
    step (.inside block opener) name (paren :: rest) =
      .ofReading (.inside block opener) (callEvent (readCall name rest)) := by
  simp [step, stepInside, nextToken, hName, hParen]

/-- A call may stand behind a keyword, which says nothing more. -/
theorem step_keyword_call {block : Section} {opener keyword name paren : Token}
    {rest : List Token}
    (hKeyword : keyword.isKeyword "action" = true ∨ keyword.isKeyword "rule" = true)
    (hName : name.kind = .ident) (hParen : paren.kind = .lparen) :
    step (.inside block opener) keyword (name :: paren :: rest) =
      .ofReading (.inside block opener) (callEvent (readCall name rest)) := by
  have hKind : keyword.kind = .ident := by
    rcases hKeyword with hWord | hWord <;> exact Token.isKeyword_kind hWord
  have hDesc : keyword.isKeyword "desc" = false := by
    rcases hKeyword with hWord | hWord <;> exact Token.isKeyword_eq_false hWord "desc" (by decide)
  simp [step, stepInside, nextToken, hKind, hDesc, hKeyword, hName, hParen]

theorem step_close {block : Section} {opener brace : Token} {rest : List Token}
    (hBrace : brace.kind = .rbrace) :
    step (.inside block opener) brace rest = .event .close .top rest := by
  simp [step, stepInside, hBrace]

/-- The key of an attribute in the main block. -/
theorem step_knownKey {opener key : Token} {rest : List Token} (hKey : key.kind = .ident)
    (hKnown : (Attribute.ofKey? key.value).isSome = true)
    (hParen : (nextToken rest).kind ≠ .lparen) :
    step (.inside .main opener) key rest =
      .ofReading (.inside .main opener) (readAttribute key rest) := by
  have hNoWord {word : String} (hWord : Attribute.keywords.lookup word = none) :
      key.isKeyword word = false := by
    rw [Bool.eq_false_iff]
    intro hKeyword
    rw [Token.ofKey?_eq_none hKeyword hWord] at hKnown
    cases hKnown
  have hDesc : key.isKeyword "desc" = false := hNoWord (by decide)
  have hAction : key.isKeyword "action" = false := hNoWord (by decide)
  have hRule : key.isKeyword "rule" = false := hNoWord (by decide)
  simp [step, stepInside, hKey, hDesc, hAction, hRule, hParen, hKnown]

end QuestScript.Script

import QuestScript.Script.Event
import QuestScript.Number.Limit
/-!
Reading the tokens of a script as events, up to the first fault of grammar.

    script     := (attribute | main | state | random)*
    attribute  := IDENT ['='] value? [';']
    main       := 'Main' '{' (attribute | statement)* '}'
    state      := 'State' name '{' statement* '}'
    random     := 'random' name '{' (name [NUMBER] [';' | ','])* '}'
    statement  := 'desc' STRING
                | ['action'] call [';']
                | ['rule'] call 'goto' name [';']
    call       := IDENT '(' [arg (',' arg)*] ')'

Keywords may be written in letters of either case, and the tokens between two commas of a call are
one argument. The last token of a script is never consumed.
-/

namespace QuestScript.Script

/-- Whether a token is a keyword, in letters of either case. -/
def Token.isKeyword (token : Token) (word : String) : Bool :=
  token.kind = .ident && Text.lowered token.value = word

/-- What reading a part of a script gives: the part and the tokens after it. -/
abbrev Reading (α : Type) := Except Malformed (α × List Token)

/-- The token that comes next. The list of tokens is never empty, since the last one stays. -/
def nextToken (tokens : List Token) : Token := tokens.headD ⟨.eof, "", 0, 0⟩

/-- Drops a semicolon if one comes next. -/
def skipSemicolon : List Token → List Token
  | token :: rest => if token.kind = .semi then rest else token :: rest
  | [] => []

def startsSemicolon (tokens : List Token) : Bool := (nextToken tokens).kind = .semi

theorem skipSemicolon_cases (tokens : List Token) :
    (∃ token rest, tokens = token :: rest ∧ token.kind = .semi ∧ skipSemicolon tokens = rest ∧
        startsSemicolon tokens = true) ∨
      ((nextToken tokens).kind ≠ .semi ∧ skipSemicolon tokens = tokens ∧
        startsSemicolon tokens = false) := by
  cases tokens with
  | nil => exact Or.inr ⟨by decide, rfl, rfl⟩
  | cons token rest =>
      by_cases hKind : token.kind = .semi
      · exact Or.inl ⟨token, rest, rfl, hKind, by rw [skipSemicolon, if_pos hKind],
          by simp [startsSemicolon, nextToken, hKind]⟩
      · exact Or.inr ⟨hKind, by rw [skipSemicolon, if_neg hKind],
          by simp [startsSemicolon, nextToken, hKind]⟩

theorem skipSemicolon_length (tokens : List Token) :
    (skipSemicolon tokens).length ≤ tokens.length := by
  rcases skipSemicolon_cases tokens with ⟨token, rest, rfl, _, hSkip, _⟩ | ⟨_, hSkip, _⟩
  · rw [hSkip]
    exact Nat.le_succ _
  · exact Nat.le_of_eq (congrArg List.length hSkip)

/-! ### Calls -/

/-- The arguments of a call from the first one to the closing parenthesis. -/
def readArguments (call : Token) : List Token → Reading (List Arg)
  | [] => .error (.atToken (.expected (.argumentTo call.value) (nextToken [])) (nextToken []))
  | first :: rest =>
    if !first.isArgument then
      .error (.atToken (.expected (.argumentTo call.value) first) first)
    else
      let arg := Arg.ofTokens first (rest.takeWhile Token.isArgument)
      match _hRest : rest.dropWhile Token.isArgument with
      | [] => .error (.atToken (.missingParen call.value) call)
      | token :: rest' =>
        if token.kind = .rparen then .ok ([arg], rest')
        else if token.kind = .comma then
          match readArguments call rest' with
          | .error fault => .error fault
          | .ok (args, final) => .ok (arg :: args, final)
        else .error (.atToken (.missingParen call.value) call)
termination_by tokens => tokens.length
decreasing_by
  have hLength := (List.dropWhile_sublist (l := rest) Token.isArgument).length_le
  rw [‹rest.dropWhile Token.isArgument = _›] at hLength
  simp only [List.length_cons] at hLength ⊢
  omega

/-- Reading arguments consumes tokens, so the recursion on what is left ends. -/
theorem readArguments_length {call : Token} {tokens : List Token} {args : List Arg}
    {rest : List Token} (hRead : readArguments call tokens = .ok (args, rest)) :
    rest.length < tokens.length := by
  fun_induction readArguments call tokens generalizing args with
  | case1 => cases hRead
  | case2 => cases hRead
  | case3 => cases hRead
  | case4 first rest₀ _ arg token rest' hRest =>
      cases hRead
      have hLength := (List.dropWhile_sublist (l := rest₀) Token.isArgument).length_le
      rw [hRest] at hLength
      simp only [List.length_cons] at hLength ⊢
      omega
  | case5 => cases hRead
  | case6 first rest₀ _ arg token rest' hRest _ _ args' final hRead' =>
      rename_i ih
      cases hRead
      have hLength := (List.dropWhile_sublist (l := rest₀) Token.isArgument).length_le
      have hFinal := ih hRead'
      rw [hRest] at hLength
      simp only [List.length_cons] at hLength ⊢
      omega
  | case7 => cases hRead

/-- The arguments of a call after its opening parenthesis. -/
def readArgumentList (call : Token) (tokens : List Token) : Reading (List Arg) :=
  match tokens with
  | token :: rest => if token.kind = .rparen then .ok ([], rest) else readArguments call tokens
  | [] => readArguments call tokens

theorem readArgumentList_eq_ok {call : Token} {tokens : List Token} {args : List Arg}
    {rest : List Token} (hRead : readArgumentList call tokens = .ok (args, rest)) :
    (∃ close, tokens = close :: rest ∧ close.kind = .rparen ∧ args = []) ∨
      readArguments call tokens = .ok (args, rest) := by
  unfold readArgumentList at hRead
  split at hRead
  · next close rest₀ =>
      split at hRead
      · next hClose =>
          cases hRead
          exact Or.inl ⟨close, rfl, hClose, rfl⟩
      · exact Or.inr hRead
  · exact Or.inr hRead

theorem readArgumentList_length {call : Token} {tokens : List Token} {args : List Arg}
    {rest : List Token} (hRead : readArgumentList call tokens = .ok (args, rest)) :
    rest.length < tokens.length := by
  rcases readArgumentList_eq_ok hRead with ⟨close, rfl, _, _⟩ | hArguments
  · exact Nat.lt_succ_self _
  · exact readArguments_length hArguments

/-- The goto clause after a call, if there is one. Its target stands on the line of its keyword. -/
def readGoto (call : Token) (tokens : List Token) : Reading (Option String) :=
  match tokens with
  | keyword :: rest =>
    if keyword.isKeyword "goto" then
      match rest with
      | target :: rest' =>
        if target.isName && target.line = keyword.line then .ok (some target.value, rest')
        else .error (.atToken (.noGotoTarget call.value) keyword)
      | [] => .error (.atToken (.noGotoTarget call.value) keyword)
    else .ok (none, tokens)
  | [] => .ok (none, tokens)

/-- There is no clause, and the next token is no keyword of one, or there is a whole one. -/
theorem readGoto_eq_ok {call : Token} {tokens : List Token} {goto : Option String}
    {rest : List Token} (hRead : readGoto call tokens = .ok (goto, rest)) :
    (goto = none ∧ rest = tokens ∧ (nextToken tokens).isKeyword "goto" = false) ∨
      ∃ keyword target, tokens = keyword :: target :: rest ∧ keyword.isKeyword "goto" = true ∧
        target.isName = true ∧ target.line = keyword.line ∧ goto = some target.value := by
  unfold readGoto at hRead
  split at hRead
  · next keyword rest₀ =>
      split at hRead
      · next hKeyword =>
          split at hRead
          · next target rest' =>
              split at hRead
              · next hTarget =>
                  cases hRead
                  rw [Bool.and_eq_true, decide_eq_true_eq] at hTarget
                  exact Or.inr ⟨keyword, target, rfl, hKeyword, hTarget.1, hTarget.2, rfl⟩
              · cases hRead
          · cases hRead
      · next hKeyword =>
          cases hRead
          exact Or.inl ⟨rfl, rfl, Bool.eq_false_iff.2 hKeyword⟩
  · cases hRead
    exact Or.inl ⟨rfl, rfl, rfl⟩

theorem readGoto_length {call : Token} {tokens : List Token} {goto : Option String}
    {rest : List Token} (hRead : readGoto call tokens = .ok (goto, rest)) :
    rest.length ≤ tokens.length := by
  rcases readGoto_eq_ok hRead with ⟨_, rfl, _⟩ | ⟨keyword, target, rfl, _⟩
  · exact Nat.le_refl _
  · exact Nat.le_add_right _ 2

/-- A call after its name and opening parenthesis. -/
def readCall (name : Token) (tokens : List Token) : Reading Call :=
  match readArgumentList name tokens with
  | .error fault => .error fault
  | .ok (args, afterArgs) =>
    match readGoto name afterArgs with
    | .error fault => .error fault
    | .ok (goto, rest) => .ok (⟨name, args, goto, startsSemicolon rest⟩, skipSemicolon rest)

/-- A call that is read is taken apart into its argument list, its goto clause and its semicolon.
-/
theorem readCall_eq_ok {name : Token} {tokens : List Token} {call : Call} {rest : List Token}
    (hRead : readCall name tokens = .ok (call, rest)) :
    ∃ args afterArgs goto afterGoto, readArgumentList name tokens = .ok (args, afterArgs) ∧
      readGoto name afterArgs = .ok (goto, afterGoto) ∧
      call = ⟨name, args, goto, startsSemicolon afterGoto⟩ ∧ rest = skipSemicolon afterGoto := by
  unfold readCall at hRead
  split at hRead
  · cases hRead
  next args afterArgs hArgs =>
  split at hRead
  · cases hRead
  next goto afterGoto hGoto =>
  cases hRead
  exact ⟨args, afterArgs, goto, afterGoto, hArgs, hGoto, rfl, rfl⟩

theorem readCall_length {name : Token} {tokens : List Token} {call : Call} {rest : List Token}
    (hRead : readCall name tokens = .ok (call, rest)) : rest.length < tokens.length := by
  obtain ⟨args, afterArgs, goto, afterGoto, hArgs, hGoto, _, rfl⟩ := readCall_eq_ok hRead
  have hArgsLength := readArgumentList_length hArgs
  have hGotoLength := readGoto_length hGoto
  have hSemicolon := skipSemicolon_length afterGoto
  omega

/-! ### Attributes -/

/-- Whether a token can be the value of an attribute without an equals sign. A flag takes a number
on its own line; any other key takes a string or a number, or a word on its own line. -/
def isLooseValue (key token : Token) : Bool :=
  if (Attribute.ofKey? key.value).any Attribute.isFlag then
    token.kind = .number && token.line = key.line
  else
    token.kind = .string || token.kind = .number ||
      (token.kind = .ident && token.line = key.line)

/-- The value of an attribute, after its key. -/
def readValue (key : Token) (tokens : List Token) : Reading (Option Arg) :=
  match tokens with
  | token :: rest =>
    if token.kind = .equals then
      match rest with
      | value :: rest' =>
        if value.isArgument then .ok (some (.ofToken value), rest')
        else .error (.atToken (.expected (.valueFor key.value) value) value)
      | [] => .error (.atToken (.expected (.valueFor key.value) (nextToken [])) (nextToken []))
    else if isLooseValue key token then .ok (some (.ofToken token), rest)
    else .ok (none, tokens)
  | [] => .ok (none, tokens)

/-- There is no value, and the next token begins none, or there is one, after an equals sign or
without it. -/
theorem readValue_eq_ok {key : Token} {tokens : List Token} {value : Option Arg}
    {rest : List Token} (hRead : readValue key tokens = .ok (value, rest)) :
    (value = none ∧ rest = tokens ∧ (nextToken tokens).kind ≠ .equals ∧
        isLooseValue key (nextToken tokens) = false) ∨
      (∃ token, tokens = token :: rest ∧ token.kind ≠ .equals ∧ isLooseValue key token = true ∧
        value = some (.ofToken token)) ∨
      ∃ equals token, tokens = equals :: token :: rest ∧ equals.kind = .equals ∧
        token.isArgument = true ∧ value = some (.ofToken token) := by
  unfold readValue at hRead
  split at hRead
  · next token rest₀ =>
      split at hRead
      · next hEquals =>
          split at hRead
          · next found rest' =>
              split at hRead
              · next hValue =>
                  cases hRead
                  exact Or.inr (Or.inr ⟨token, found, rfl, hEquals, hValue, rfl⟩)
              · cases hRead
          · cases hRead
      · next hEquals =>
          split at hRead
          · next hLoose =>
              cases hRead
              exact Or.inr (Or.inl ⟨token, rfl, hEquals, hLoose, rfl⟩)
          · next hLoose =>
              cases hRead
              exact Or.inl ⟨rfl, rfl, hEquals, Bool.eq_false_iff.2 hLoose⟩
  · cases hRead
    exact Or.inl ⟨rfl, rfl, by decide, by simp [isLooseValue, nextToken]⟩

theorem readValue_length {key : Token} {tokens : List Token} {value : Option Arg}
    {rest : List Token} (hRead : readValue key tokens = .ok (value, rest)) :
    rest.length ≤ tokens.length := by
  rcases readValue_eq_ok hRead with ⟨_, rfl, _⟩ | ⟨token, rfl, _⟩ | ⟨equals, token, rfl, _⟩
  · exact Nat.le_refl _
  · exact Nat.le_succ _
  · exact Nat.le_add_right _ 2

/-- An attribute, after its key. -/
def readAttribute (key : Token) (tokens : List Token) : Reading Event :=
  match readValue key tokens with
  | .error fault => .error fault
  | .ok (value, rest) => .ok (.attr key value, skipSemicolon rest)

/-- An attribute that is read is taken apart into its value and its semicolon. -/
theorem readAttribute_eq_ok {key : Token} {tokens : List Token} {event : Event}
    {rest : List Token} (hRead : readAttribute key tokens = .ok (event, rest)) :
    ∃ value afterValue, readValue key tokens = .ok (value, afterValue) ∧
      event = .attr key value ∧ rest = skipSemicolon afterValue := by
  unfold readAttribute at hRead
  split at hRead
  · cases hRead
  next value afterValue hValue =>
  cases hRead
  exact ⟨value, afterValue, hValue, rfl, rfl⟩

theorem readAttribute_length {key : Token} {tokens : List Token} {event : Event}
    {rest : List Token} (hRead : readAttribute key tokens = .ok (event, rest)) :
    rest.length ≤ tokens.length := by
  obtain ⟨value, afterValue, hValue, _, rfl⟩ := readAttribute_eq_ok hRead
  exact Nat.le_trans (skipSemicolon_length _) (readValue_length hValue)

/-! ### Random blocks -/

/-- The weight after a target; one if there is none. -/
def readWeight (target : Token) (tokens : List Token) : Reading Int :=
  match tokens with
  | token :: rest =>
    if token.kind = .number then
      match Integer.leadingInFault? token.value with
      | some fault => .error (.oversize fault)
      | none =>
        let weight := Integer.leadingD token.value 1
        if weight < 0 then .error (.atToken (.negativeWeight target.value) token)
        else .ok (weight, rest)
    else .ok (1, tokens)
  | [] => .ok (1, tokens)

theorem readWeight_eq_ok {target : Token} {tokens : List Token} {weight : Int}
    {rest : List Token} (hRead : readWeight target tokens = .ok (weight, rest)) :
    (weight = 1 ∧ rest = tokens) ∨
      ∃ token, tokens = token :: rest ∧ token.kind = .number ∧
        Integer.leadingInFault? token.value = none ∧ 0 ≤ weight ∧
        weight = Integer.leadingD token.value 1 := by
  unfold readWeight at hRead
  split at hRead
  · next token rest₀ =>
      split at hRead
      · next hKind =>
          split at hRead
          · cases hRead
          next hFits =>
          simp only at hRead
          split at hRead
          · cases hRead
          · next hSign =>
              cases hRead
              exact Or.inr ⟨token, rfl, hKind, hFits, Int.not_lt.1 hSign, rfl⟩
      · cases hRead
        exact Or.inl ⟨rfl, rfl⟩
  · cases hRead
    exact Or.inl ⟨rfl, rfl⟩

theorem readWeight_length {target : Token} {tokens : List Token} {weight : Int}
    {rest : List Token} (hRead : readWeight target tokens = .ok (weight, rest)) :
    rest.length ≤ tokens.length := by
  rcases readWeight_eq_ok hRead with ⟨_, rfl⟩ | ⟨token, rfl, _⟩
  · exact Nat.le_refl _
  · exact Nat.le_succ _

/-- The targets of a random block, from the next one to the closing brace. -/
def readTargets (opener : Token) (block : String) :
    List Token → Reading (List (String × Int))
  | [] => .error (.atToken (.randomNeverClosed block) opener)
  | token :: rest =>
    if token.kind = .rbrace then .ok ([], rest)
    else if token.kind = .eof then .error (.atToken (.randomNeverClosed block) opener)
    else if token.kind = .semi || token.kind = .comma then readTargets opener block rest
    else if token.isName then
      match _hWeight : readWeight token rest with
      | .error fault => .error fault
      | .ok (weight, rest') =>
        match readTargets opener block rest' with
        | .error fault => .error fault
        | .ok (targets, final) => .ok ((token.value, weight) :: targets, final)
    else .error (.atToken (.expected (.targetIn block) token) token)
termination_by tokens => tokens.length
decreasing_by
  · exact Nat.lt_succ_self _
  · exact Nat.lt_succ_of_le (readWeight_length (by assumption))

/-- Reading targets consumes tokens, at least the closing brace. -/
theorem readTargets_length {opener : Token} {block : String} {tokens : List Token}
    {targets : List (String × Int)} {rest : List Token}
    (hRead : readTargets opener block tokens = .ok (targets, rest)) :
    rest.length < tokens.length := by
  fun_induction readTargets opener block tokens generalizing targets with
  | case1 => cases hRead
  | case2 token rest₀ =>
      cases hRead
      exact Nat.lt_succ_self _
  | case3 => cases hRead
  | case4 token rest₀ _ _ _ ih => exact Nat.lt_succ_of_lt (ih hRead)
  | case5 => cases hRead
  | case6 => cases hRead
  | case7 token rest₀ _ _ _ _ weight rest' hWeight targets' final hRead' ih =>
      cases hRead
      have hLength := readWeight_length hWeight
      have hFinal := ih hRead'
      simp only [List.length_cons]
      omega
  | case8 => cases hRead

/-- A random block, after its name. -/
def readRandom (opener name : Token) (tokens : List Token) : Reading Event :=
  match tokens with
  | brace :: rest =>
    if brace.kind = .lbrace then
      match readTargets opener name.value rest with
      | .error fault => .error fault
      | .ok (targets, rest') => .ok (.random opener name.value targets, rest')
    else .error (.atToken (.expected (.braceAfterRandom name.value) brace) brace)
  | [] => .error (.atToken (.expected (.braceAfterRandom name.value) (nextToken [])) (nextToken []))

theorem readRandom_eq_ok {opener name : Token} {tokens : List Token} {event : Event}
    {rest : List Token} (hRead : readRandom opener name tokens = .ok (event, rest)) :
    ∃ brace more targets, tokens = brace :: more ∧ brace.kind = .lbrace ∧
      readTargets opener name.value more = .ok (targets, rest) ∧
      event = .random opener name.value targets := by
  unfold readRandom at hRead
  split at hRead
  · next brace more =>
      split at hRead
      · next hBrace =>
          split at hRead
          · cases hRead
          next targets final hTargets =>
          cases hRead
          exact ⟨brace, more, targets, rfl, hBrace, hTargets, rfl⟩
      · cases hRead
  · cases hRead

theorem readRandom_length {opener name : Token} {tokens : List Token} {event : Event}
    {rest : List Token} (hRead : readRandom opener name tokens = .ok (event, rest)) :
    rest.length ≤ tokens.length := by
  obtain ⟨brace, more, targets, rfl, _, hTargets, _⟩ := readRandom_eq_ok hRead
  exact Nat.le_of_lt (Nat.lt_succ_of_lt (readTargets_length hTargets))

/-! ### Steps -/

/-- The block that the next tokens stand in, with its opener. -/
inductive Scope where
  | top
  | inside (block : Section) (opener : Token)
deriving DecidableEq, Repr

/-- What the next tokens of a script are: its end, a semicolon to pass over, an event with the
scope after it, or a fault. -/
inductive Step where
  | finished
  | skip
  | event (event : Event) (scope : Scope) (rest : List Token)
  | failure (fault : Malformed)

/-- The step that a reading makes in a scope that it does not change. -/
def Step.ofReading (scope : Scope) : Reading Event → Step
  | .error fault => .failure fault
  | .ok (found, rest) => .event found scope rest

/-- A state block, after its name. -/
def openState (opener name : Token) (tokens : List Token) : Step :=
  let brace := nextToken tokens
  if brace.kind = .lbrace then
    .event (.openState opener name.value) (.inside (.state name.value) opener) tokens.tail
  else .failure (.atToken (.expected (.braceAfterState name.value) brace) brace)

def stepTop (token : Token) (rest : List Token) : Step :=
  let next := nextToken rest
  if token.kind = .eof then .finished
  else if token.kind = .semi then .skip
  else if token.isKeyword "main" && next.kind = .lbrace then
    .event (.openMain token) (.inside .main token) rest.tail
  else if token.isKeyword "state" && next.isName then openState token next rest.tail
  else if token.isKeyword "random" && next.isName then
    .ofReading .top (readRandom token next rest.tail)
  else if token.kind = .ident && next.kind ≠ .lparen then
    .ofReading .top (readAttribute token rest)
  else .failure (.atToken (.outsideBlock token) token)

def callEvent : Reading Call → Reading Event
  | .error fault => .error fault
  | .ok (call, rest) => .ok (.call call, rest)

def stepInside (block : Section) (opener token : Token) (rest : List Token) : Step :=
  let next := nextToken rest
  let scope := Scope.inside block opener
  if token.kind = .rbrace then .event .close .top rest
  else if token.kind = .eof then .failure (.atToken (.neverClosed block) opener)
  else if token.kind = .semi then .skip
  else if token.kind ≠ .ident then .failure (.atToken (.insideBlock token block) token)
  else if token.isKeyword "desc" && next.kind = .string then
    .event (.desc token next.value) scope (skipSemicolon rest.tail)
  else if (token.isKeyword "action" || token.isKeyword "rule") &&
      next.kind = .ident && (nextToken rest.tail).kind = .lparen then
    .ofReading scope (callEvent (readCall next rest.tail.tail))
  else if next.kind = .lparen then .ofReading scope (callEvent (readCall token rest.tail))
  else if block = .main && (Attribute.ofKey? token.value).isSome then
    .ofReading scope (readAttribute token rest)
  else .failure (.atToken (.noStatement token block) token)

def step (scope : Scope) (token : Token) (rest : List Token) : Step :=
  match scope with
  | .top => stepTop token rest
  | .inside block opener => stepInside block opener token rest

/-! ### Which event a step reads -/

theorem nextToken_cons_tail (tokens : List Token) (hKind : (nextToken tokens).kind ≠ .eof) :
    tokens = nextToken tokens :: tokens.tail := by
  cases tokens with
  | nil => exact absurd rfl hKind
  | cons token rest => rfl

theorem Token.kind_of_isName {token : Token} (hName : token.isName = true) :
    token.kind = .string ∨ token.kind = .ident := by
  simpa [Token.isName] using hName

/-- No name is of a kind that neither strings nor words have. -/
theorem Token.kind_ne_of_isName {token : Token} (hName : token.isName = true) {kind : Kind}
    (hString : kind ≠ .string) (hIdent : kind ≠ .ident) : token.kind ≠ kind := by
  rintro rfl
  exact (Token.kind_of_isName hName).elim hString hIdent

theorem Token.isKeyword_kind {token : Token} {word : String} (hWord : token.isKeyword word = true) :
    token.kind = .ident := by
  simp only [Token.isKeyword, Bool.and_eq_true, decide_eq_true_eq] at hWord
  exact hWord.1

/-- The keywords of statements are no keys of attributes. -/
theorem Token.ofKey?_eq_none {token : Token} {word : String}
    (hKeyword : token.isKeyword word = true) (hWord : Attribute.keywords.lookup word = none) :
    Attribute.ofKey? token.value = none := by
  simp only [Token.isKeyword, Bool.and_eq_true, decide_eq_true_eq] at hKeyword
  rw [Attribute.ofKey?, hKeyword.2, hWord]

theorem Step.ofReading_event {scope scope' : Scope} {reading : Reading Event} {event : Event}
    {rest : List Token} (hStep : Step.ofReading scope reading = .event event scope' rest) :
    reading = .ok (event, rest) ∧ scope' = scope := by
  cases reading with
  | error fault => cases hStep
  | ok value =>
      cases hStep
      exact ⟨rfl, rfl⟩

theorem callEvent_eq_ok {reading : Reading Call} {event : Event} {rest : List Token}
    (hEvent : callEvent reading = .ok (event, rest)) :
    ∃ call, reading = .ok (call, rest) ∧ event = .call call := by
  cases reading with
  | error fault => cases hEvent
  | ok value =>
      cases hEvent
      exact ⟨value.1, rfl, rfl⟩

/-- Whether a token outside of the blocks is the key of an attribute, by the token after it: a word
before a parenthesis is none, and neither is the keyword of a block before what such a block begins
with. -/
def Token.isKeyBefore (key next : Token) : Bool :=
  key.kind = .ident && next.kind ≠ .lparen && !(key.isKeyword "main" && next.kind = .lbrace) &&
    !(key.isKeyword "state" && next.isName) && !(key.isKeyword "random" && next.isName)

/-- What a step outside of the blocks reads from its first token and the tokens after it: an event,
with the scope and the tokens behind it. -/
inductive TopStep (token : Token) : List Token → Event → Scope → List Token → Prop where
  | main {brace : Token} {rest : List Token} (hKeyword : token.isKeyword "main" = true)
      (hBrace : brace.kind = .lbrace) :
      TopStep token (brace :: rest) (.openMain token) (.inside .main token) rest
  | state {name brace : Token} {rest : List Token} (hKeyword : token.isKeyword "state" = true)
      (hName : name.isName = true) (hBrace : brace.kind = .lbrace) :
      TopStep token (name :: brace :: rest) (.openState token name.value)
        (.inside (.state name.value) token) rest
  | random {name : Token} {tokens rest : List Token} {event : Event}
      (hKeyword : token.isKeyword "random" = true) (hName : name.isName = true)
      (hRead : readRandom token name tokens = .ok (event, rest)) :
      TopStep token (name :: tokens) event .top rest
  | attr {tokens rest : List Token} {event : Event}
      (hKey : token.isKeyBefore (nextToken tokens) = true)
      (hRead : readAttribute token tokens = .ok (event, rest)) : TopStep token tokens event .top rest

theorem openState_cases {opener name : Token} {tokens rest : List Token} {event : Event}
    {scope : Scope} (hKeyword : opener.isKeyword "state" = true) (hName : name.isName = true)
    (hStep : openState opener name tokens = .event event scope rest) :
    TopStep opener (name :: tokens) event scope rest := by
  unfold openState at hStep
  simp only at hStep
  split at hStep
  · next hBrace =>
      cases hStep
      rw [nextToken_cons_tail tokens (by rw [hBrace]; decide)]
      exact TopStep.state hKeyword hName hBrace
  · cases hStep

/-- Every event outside of the blocks comes from one of the listed readings. Proofs about steps
split on these and never unfold the step. -/
theorem stepTop_cases {token : Token} {rest rest' : List Token} {event : Event} {scope : Scope}
    (hStep : stepTop token rest = .event event scope rest') :
    TopStep token rest event scope rest' := by
  unfold stepTop at hStep
  simp only at hStep
  split at hStep
  · cases hStep
  split at hStep
  · cases hStep
  split at hStep
  · next hMain =>
      cases hStep
      rw [Bool.and_eq_true, decide_eq_true_eq] at hMain
      rw [nextToken_cons_tail rest (by rw [hMain.2]; decide)]
      exact TopStep.main hMain.1 hMain.2
  next hMain =>
  split at hStep
  · next hState =>
      rw [Bool.and_eq_true] at hState
      rw [nextToken_cons_tail rest (Token.kind_ne_of_isName hState.2 (by decide) (by decide))]
      exact openState_cases hState.1 hState.2 hStep
  next hState =>
  split at hStep
  · next hRandom =>
      rw [Bool.and_eq_true] at hRandom
      rw [nextToken_cons_tail rest (Token.kind_ne_of_isName hRandom.2 (by decide) (by decide))]
      obtain ⟨hRead, rfl⟩ := Step.ofReading_event hStep
      exact TopStep.random hRandom.1 hRandom.2 hRead
  next hRandom =>
  split at hStep
  · next hKey =>
      obtain ⟨hRead, rfl⟩ := Step.ofReading_event hStep
      refine TopStep.attr ?_ hRead
      rw [Bool.not_eq_true] at hMain hState hRandom
      rw [Token.isKeyBefore, hKey, hMain, hState, hRandom]
      rfl
  · cases hStep

/-- What a step in a block reads from its first token and the tokens after it. -/
inductive BlockStep (block : Section) (opener token : Token) :
    List Token → Event → Scope → List Token → Prop where
  | close {rest : List Token} (hBrace : token.kind = .rbrace) :
      BlockStep block opener token rest .close .top rest
  | desc {text : Token} {rest : List Token} (hKeyword : token.isKeyword "desc" = true)
      (hText : text.kind = .string) :
      BlockStep block opener token (text :: rest) (.desc token text.value) (.inside block opener)
        (skipSemicolon rest)
  | keywordCall {name paren : Token} {tokens rest : List Token} {call : Call}
      (hKeyword : token.isKeyword "action" = true ∨ token.isKeyword "rule" = true)
      (hName : name.kind = .ident) (hParen : paren.kind = .lparen)
      (hRead : readCall name tokens = .ok (call, rest)) :
      BlockStep block opener token (name :: paren :: tokens) (.call call) (.inside block opener) rest
  | call {paren : Token} {tokens rest : List Token} {call : Call} (hName : token.kind = .ident)
      (hParen : paren.kind = .lparen) (hRead : readCall token tokens = .ok (call, rest)) :
      BlockStep block opener token (paren :: tokens) (.call call) (.inside block opener) rest
  | attr {tokens rest : List Token} {event : Event} (hBlock : block = .main)
      (hKey : token.kind = .ident) (hKnown : (Attribute.ofKey? token.value).isSome = true)
      (hParen : (nextToken tokens).kind ≠ .lparen)
      (hRead : readAttribute token tokens = .ok (event, rest)) :
      BlockStep block opener token tokens event (.inside block opener) rest

/-- Every event inside of a block comes from one of the listed readings. -/
theorem stepInside_cases {block : Section} {opener token : Token} {rest rest' : List Token}
    {event : Event} {scope : Scope}
    (hStep : stepInside block opener token rest = .event event scope rest') :
    BlockStep block opener token rest event scope rest' := by
  unfold stepInside at hStep
  simp only at hStep
  split at hStep
  · next hBrace =>
      cases hStep
      exact BlockStep.close hBrace
  split at hStep
  · cases hStep
  split at hStep
  · cases hStep
  split at hStep
  · cases hStep
  next hIdent =>
  rw [ne_eq, Decidable.not_not] at hIdent
  split at hStep
  · next hDesc =>
      cases hStep
      rw [Bool.and_eq_true, decide_eq_true_eq] at hDesc
      rw [nextToken_cons_tail rest (by rw [hDesc.2]; decide)]
      exact BlockStep.desc hDesc.1 hDesc.2
  split at hStep
  · next hFront =>
      simp only [Bool.and_eq_true, Bool.or_eq_true, decide_eq_true_eq] at hFront
      obtain ⟨⟨hKeyword, hName⟩, hParen⟩ := hFront
      obtain ⟨hEvent, rfl⟩ := Step.ofReading_event hStep
      obtain ⟨call, hRead, rfl⟩ := callEvent_eq_ok hEvent
      rw [nextToken_cons_tail rest (by rw [hName]; decide),
        nextToken_cons_tail rest.tail (by rw [hParen]; decide)]
      exact BlockStep.keywordCall hKeyword hName hParen hRead
  split at hStep
  · next hParen =>
      obtain ⟨hEvent, rfl⟩ := Step.ofReading_event hStep
      obtain ⟨call, hRead, rfl⟩ := callEvent_eq_ok hEvent
      rw [nextToken_cons_tail rest (by rw [hParen]; decide)]
      exact BlockStep.call hIdent hParen hRead
  next hParen =>
  split at hStep
  · next hKey =>
      rw [Bool.and_eq_true, decide_eq_true_eq] at hKey
      obtain ⟨hRead, rfl⟩ := Step.ofReading_event hStep
      exact BlockStep.attr hKey.1 hIdent hKey.2 hParen hRead
  · cases hStep

/-- A step outside of the blocks leaves no more tokens than there were behind its first. -/
theorem TopStep.length_le {token : Token} {rest rest' : List Token} {event : Event} {scope : Scope}
    (taken : TopStep token rest event scope rest') : rest'.length ≤ rest.length := by
  cases taken with
  | main => exact Nat.le_succ _
  | state => exact Nat.le_add_right _ 2
  | random _ _ hRead => exact Nat.le_succ_of_le (readRandom_length hRead)
  | attr _ hRead => exact readAttribute_length hRead

/-- A step inside of a block leaves no more tokens than there were behind its first. -/
theorem BlockStep.length_le {block : Section} {opener token : Token} {rest rest' : List Token}
    {event : Event} {scope : Scope} (taken : BlockStep block opener token rest event scope rest') :
    rest'.length ≤ rest.length := by
  cases taken with
  | close => exact Nat.le_refl _
  | desc => exact Nat.le_succ_of_le (skipSemicolon_length _)
  | keywordCall _ _ _ hRead =>
      exact Nat.le_succ_of_le (Nat.le_succ_of_le (Nat.le_of_lt (readCall_length hRead)))
  | call _ _ hRead => exact Nat.le_succ_of_le (Nat.le_of_lt (readCall_length hRead))
  | attr _ _ _ _ hRead => exact readAttribute_length hRead

/-- An event consumes its first token at least. -/
theorem step_event_length {scope scope' : Scope} {token : Token} {rest rest' : List Token}
    {event : Event} (hStep : step scope token rest = .event event scope' rest') :
    rest'.length ≤ rest.length := by
  cases scope with
  | top => exact (stepTop_cases hStep).length_le
  | inside block opener => exact (stepInside_cases hStep).length_le

/-! ### Outlines -/

/-- The events of a script in order, up to its end or its first fault. -/
structure Outline where
  events : List Event
  fault : Option Malformed
deriving DecidableEq, Repr

def Outline.cons (event : Event) (outline : Outline) : Outline :=
  { outline with events := event :: outline.events }

/-- The outline of the tokens that are left in a scope. -/
def outlineFrom (scope : Scope) : List Token → Outline
  | [] => ⟨[], none⟩
  | token :: rest =>
    match _hStep : step scope token rest with
    | .finished => ⟨[], none⟩
    | .failure fault => ⟨[], some fault⟩
    | .skip => outlineFrom scope rest
    | .event event scope' rest' => (outlineFrom scope' rest').cons event
termination_by tokens => tokens.length
decreasing_by
  · exact Nat.lt_succ_self _
  · exact Nat.lt_succ_of_le (step_event_length (by assumption))

/-- The outline goes on after a step. -/
theorem outlineFrom_cons (scope : Scope) (token : Token) (rest : List Token) :
    outlineFrom scope (token :: rest) =
      match step scope token rest with
      | .finished => ⟨[], none⟩
      | .failure fault => ⟨[], some fault⟩
      | .skip => outlineFrom scope rest
      | .event event scope' rest' => (outlineFrom scope' rest').cons event := by
  rw [outlineFrom]
  cases step scope token rest <;> rfl

/-- The outline of the tokens of a script. -/
def Outline.ofTokens (tokens : List Token) : Outline := outlineFrom .top tokens

end QuestScript.Script

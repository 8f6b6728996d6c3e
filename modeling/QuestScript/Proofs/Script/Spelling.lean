import QuestScript.Script.Outline
import QuestScript.Proofs.Script.Shape
import Mathlib.Algebra.GroupWithZero.Nat
/-!
How the events of a script are spelled in tokens. The tokens of a script without a fault are the
spellings of its events one after the other, with semicolons between them and the end of the script
behind, so nothing of a script is passed over and nothing is read twice.
-/

namespace QuestScript.Script

/-! ### Parts of events -/

/-- Tokens that spell the arguments of a call, from the first one to the closing parenthesis. -/
inductive ArgumentsSpelled : List Token → List Arg → Prop where
  | last {first close : Token} {more : List Token} (hFirst : first.isArgument = true)
      (hMore : ∀ token ∈ more, token.isArgument = true) (hClose : close.kind = .rparen) :
      ArgumentsSpelled (first :: more ++ [close]) [Arg.ofTokens first more]
  | next {first comma : Token} {more tokens : List Token} {args : List Arg}
      (hFirst : first.isArgument = true) (hMore : ∀ token ∈ more, token.isArgument = true)
      (hComma : comma.kind = .comma) (rest : ArgumentsSpelled tokens args) :
      ArgumentsSpelled (first :: more ++ comma :: tokens) (Arg.ofTokens first more :: args)

/-- Tokens that spell what stands after the opening parenthesis of a call. -/
inductive ArgumentListSpelled : List Token → List Arg → Prop where
  | empty {close : Token} (hClose : close.kind = .rparen) : ArgumentListSpelled [close] []
  | args {tokens : List Token} {args : List Arg} (spelled : ArgumentsSpelled tokens args) :
      ArgumentListSpelled tokens args

/-- Tokens that spell a goto clause, or its absence. -/
inductive GotoSpelled : List Token → Option String → Prop where
  | absent : GotoSpelled [] none
  | clause {keyword target : Token} (hKeyword : keyword.isKeyword "goto" = true)
      (hTarget : target.isName = true) (hLine : target.line = keyword.line) :
      GotoSpelled [keyword, target] (some target.value)

/-- Tokens that spell a semicolon, or its absence. -/
inductive SemicolonSpelled : List Token → Bool → Prop where
  | absent : SemicolonSpelled [] false
  | present {token : Token} (hKind : token.kind = .semi) : SemicolonSpelled [token] true

/-- Tokens that spell the value after a key, or its absence. -/
inductive ValueSpelled (key : Token) : List Token → Option Arg → Prop where
  | absent : ValueSpelled key [] none
  | loose {value : Token} (hLoose : isLooseValue key value = true) :
      ValueSpelled key [value] (some (.ofToken value))
  | assigned {equals value : Token} (hEquals : equals.kind = .equals)
      (hValue : value.isArgument = true) :
      ValueSpelled key [equals, value] (some (.ofToken value))

/-- Tokens that spell the targets of a random block up to its closing brace. -/
inductive TargetsSpelled : List Token → List (String × Int) → Prop where
  | close {token : Token} (hKind : token.kind = .rbrace) : TargetsSpelled [token] []
  | separator {token : Token} {tokens : List Token} {targets : List (String × Int)}
      (hKind : token.kind = .semi ∨ token.kind = .comma) (rest : TargetsSpelled tokens targets) :
      TargetsSpelled (token :: tokens) targets
  | plain {name : Token} {tokens : List Token} {targets : List (String × Int)}
      (hName : name.isName = true) (rest : TargetsSpelled tokens targets) :
      TargetsSpelled (name :: tokens) ((name.value, 1) :: targets)
  | weighted {name weight : Token} {tokens : List Token} {targets : List (String × Int)}
      (hName : name.isName = true) (hWeight : weight.kind = .number)
      (hFits : Integer.leadingInFault? weight.value = none)
      (hSign : 0 ≤ Integer.leadingD weight.value 1) (rest : TargetsSpelled tokens targets) :
      TargetsSpelled (name :: weight :: tokens)
        ((name.value, Integer.leadingD weight.value 1) :: targets)

/-! ### Events and scripts -/

/-- Whether an attribute may be given in a scope under a key: outside of the blocks any, in the main
block those that quests have fields for. -/
def Scope.takesKey (scope : Scope) (key : Token) : Prop :=
  match scope with
  | .top => True
  | .inside block _ => block = .main ∧ (Attribute.ofKey? key.value).isSome = true

/-- Tokens that spell the optional keyword in front of a call. -/
inductive PrefixSpelled : List Token → Prop where
  | absent : PrefixSpelled []
  | keyword {token : Token}
      (hKeyword : token.isKeyword "action" = true ∨ token.isKeyword "rule" = true) :
      PrefixSpelled [token]

/-- Tokens that spell an event, with the scopes before and after it. -/
inductive EventSpelled : Scope → Event → List Token → Scope → Prop where
  | attr {scope : Scope} {key : Token} {value : Option Arg} {valueTokens semicolon : List Token}
      {ended : Bool} (hKey : key.kind = .ident) (hScope : scope.takesKey key)
      (spelledValue : ValueSpelled key valueTokens value)
      (spelledEnd : SemicolonSpelled semicolon ended) :
      EventSpelled scope (.attr key value) (key :: valueTokens ++ semicolon) scope
  | openMain {opener brace : Token} (hOpener : opener.isKeyword "main" = true)
      (hBrace : brace.kind = .lbrace) :
      EventSpelled .top (.openMain opener) [opener, brace] (.inside .main opener)
  | openState {opener name brace : Token} (hOpener : opener.isKeyword "state" = true)
      (hName : name.isName = true) (hBrace : brace.kind = .lbrace) :
      EventSpelled .top (.openState opener name.value) [opener, name, brace]
        (.inside (.state name.value) opener)
  | desc {block : Section} {opener keyword text : Token} {semicolon : List Token} {ended : Bool}
      (hKeyword : keyword.isKeyword "desc" = true) (hText : text.kind = .string)
      (spelledEnd : SemicolonSpelled semicolon ended) :
      EventSpelled (.inside block opener) (.desc keyword text.value)
        (keyword :: text :: semicolon) (.inside block opener)
  | call {block : Section} {opener name paren : Token} {front args goto semicolon : List Token}
      {call : Call} (hFront : PrefixSpelled front) (hName : name.kind = .ident)
      (hCall : call.name = name) (hParen : paren.kind = .lparen)
      (spelledArgs : ArgumentListSpelled args call.args)
      (spelledGoto : GotoSpelled goto call.goto)
      (spelledEnd : SemicolonSpelled semicolon call.semicolon) :
      EventSpelled (.inside block opener) (.call call)
        (front ++ name :: paren :: args ++ goto ++ semicolon) (.inside block opener)
  | close {block : Section} {opener brace : Token} (hBrace : brace.kind = .rbrace) :
      EventSpelled (.inside block opener) .close [brace] .top
  | random {opener name brace : Token} {tokens : List Token} {targets : List (String × Int)}
      (hOpener : opener.isKeyword "random" = true) (hName : name.isName = true)
      (hBrace : brace.kind = .lbrace) (spelled : TargetsSpelled tokens targets) :
      EventSpelled .top (.random opener name.value targets) (opener :: name :: brace :: tokens) .top

/-- Tokens that spell the events from a scope to the end of the script. -/
inductive ScriptSpelled : Scope → List Event → List Token → Prop where
  | finished {final : Token} (hFinal : final.kind = .eof) : ScriptSpelled .top [] [final]
  | skip {scope : Scope} {token : Token} {events : List Event} {tokens : List Token}
      (hKind : token.kind = .semi) (rest : ScriptSpelled scope events tokens) :
      ScriptSpelled scope events (token :: tokens)
  | event {scope scope' : Scope} {event : Event} {events : List Event}
      {spelling tokens : List Token} (first : EventSpelled scope event spelling scope')
      (rest : ScriptSpelled scope' events tokens) :
      ScriptSpelled scope (event :: events) (spelling ++ tokens)

/-! ### What reading consumes -/

/-- A semicolon that is skipped is all that is consumed. -/
theorem skipSemicolon_spelled (tokens : List Token) :
    ∃ spelling, tokens = spelling ++ skipSemicolon tokens ∧
      SemicolonSpelled spelling (startsSemicolon tokens) := by
  rcases skipSemicolon_cases tokens with
    ⟨token, rest, rfl, hKind, hSkip, hStarts⟩ | ⟨_, hSkip, hStarts⟩
  · rw [hSkip, hStarts]
    exact ⟨[token], rfl, SemicolonSpelled.present hKind⟩
  · rw [hSkip, hStarts]
    exact ⟨[], rfl, SemicolonSpelled.absent⟩

theorem mem_takeWhile_isArgument {tokens : List Token} {token : Token}
    (hMem : token ∈ tokens.takeWhile Token.isArgument) : token.isArgument = true :=
  List.all_eq_true.1 List.all_takeWhile token hMem

/-- The arguments that are read are spelled by the tokens consumed. The induction follows the
recursion of the reader. -/
theorem readArguments_spelled {call : Token} {tokens rest : List Token} {args : List Arg}
    (hRead : readArguments call tokens = .ok (args, rest)) :
    ∃ spelling, tokens = spelling ++ rest ∧ ArgumentsSpelled spelling args := by
  fun_induction readArguments call tokens generalizing args with
  | case1 => cases hRead
  | case2 => cases hRead
  | case3 => cases hRead
  | case4 first rest₀ hFirst arg token rest' hRest =>
      rename_i hClose
      cases hRead
      refine ⟨first :: rest₀.takeWhile Token.isArgument ++ [token], ?_, ?_⟩
      · simp [← hRest]
      · exact ArgumentsSpelled.last (by simpa using hFirst)
          (fun _ hMem => mem_takeWhile_isArgument hMem) hClose
  | case5 => cases hRead
  | case6 first rest₀ hFirst arg token rest' hRest hClose hComma args' final hRead' =>
      rename_i ih
      cases hRead
      obtain ⟨spelling, rfl, hSpelled⟩ := ih hRead'
      refine ⟨first :: rest₀.takeWhile Token.isArgument ++ token :: spelling, ?_, ?_⟩
      · simp [← hRest]
      · exact ArgumentsSpelled.next (by simpa using hFirst)
          (fun _ hMem => mem_takeWhile_isArgument hMem) hComma hSpelled
  | case7 => cases hRead

theorem readArgumentList_spelled {call : Token} {tokens rest : List Token} {args : List Arg}
    (hRead : readArgumentList call tokens = .ok (args, rest)) :
    ∃ spelling, tokens = spelling ++ rest ∧ ArgumentListSpelled spelling args := by
  rcases readArgumentList_eq_ok hRead with ⟨close, rfl, hClose, rfl⟩ | hArguments
  · exact ⟨[close], rfl, ArgumentListSpelled.empty hClose⟩
  · obtain ⟨spelling, hText, hSpelled⟩ := readArguments_spelled hArguments
    exact ⟨spelling, hText, ArgumentListSpelled.args hSpelled⟩

/-- A goto clause that is read is spelled by two tokens, or by none. -/
theorem readGoto_spelled {call : Token} {tokens rest : List Token} {goto : Option String}
    (hRead : readGoto call tokens = .ok (goto, rest)) :
    ∃ spelling, tokens = spelling ++ rest ∧ GotoSpelled spelling goto := by
  rcases readGoto_eq_ok hRead with
    ⟨rfl, rfl, _⟩ | ⟨keyword, target, rfl, hKeyword, hTarget, hLine, rfl⟩
  · exact ⟨[], rfl, GotoSpelled.absent⟩
  · exact ⟨[keyword, target], rfl, GotoSpelled.clause hKeyword hTarget hLine⟩

/-- A call that is read is spelled by its name, its arguments, its goto clause and its semicolon,
in this order. -/
theorem readCall_spelled {name : Token} {tokens rest : List Token} {call : Call}
    (hRead : readCall name tokens = .ok (call, rest)) :
    ∃ args goto semicolon, tokens = args ++ goto ++ semicolon ++ rest ∧ call.name = name ∧
      ArgumentListSpelled args call.args ∧ GotoSpelled goto call.goto ∧
      SemicolonSpelled semicolon call.semicolon := by
  obtain ⟨args, afterArgs, goto, afterGoto, hArgs, hGoto, rfl, rfl⟩ := readCall_eq_ok hRead
  obtain ⟨argTokens, rfl, hArgsSpelled⟩ := readArgumentList_spelled hArgs
  obtain ⟨gotoTokens, rfl, hGotoSpelled⟩ := readGoto_spelled hGoto
  obtain ⟨semicolon, hText, hEnd⟩ := skipSemicolon_spelled afterGoto
  refine ⟨argTokens, gotoTokens, semicolon, ?_, rfl, hArgsSpelled, hGotoSpelled, hEnd⟩
  rw [List.append_assoc, List.append_assoc, ← hText]

theorem readValue_spelled {key : Token} {tokens rest : List Token} {value : Option Arg}
    (hRead : readValue key tokens = .ok (value, rest)) :
    ∃ spelling, tokens = spelling ++ rest ∧ ValueSpelled key spelling value := by
  rcases readValue_eq_ok hRead with ⟨rfl, rfl, _⟩ | ⟨token, rfl, _, hLoose, rfl⟩ |
    ⟨equals, token, rfl, hEquals, hValue, rfl⟩
  · exact ⟨[], rfl, ValueSpelled.absent⟩
  · exact ⟨[token], rfl, ValueSpelled.loose hLoose⟩
  · exact ⟨[equals, token], rfl, ValueSpelled.assigned hEquals hValue⟩

theorem readAttribute_spelled {scope : Scope} {key : Token} {tokens rest : List Token}
    {event : Event} (hKey : key.kind = .ident) (hScope : scope.takesKey key)
    (hRead : readAttribute key tokens = .ok (event, rest)) :
    ∃ spelling, key :: tokens = spelling ++ rest ∧ EventSpelled scope event spelling scope := by
  obtain ⟨value, afterValue, hValue, rfl, rfl⟩ := readAttribute_eq_ok hRead
  obtain ⟨valueTokens, rfl, hSpelled⟩ := readValue_spelled hValue
  obtain ⟨semicolon, hText, hEnd⟩ := skipSemicolon_spelled afterValue
  refine ⟨key :: valueTokens ++ semicolon, ?_, EventSpelled.attr hKey hScope hSpelled hEnd⟩
  rw [List.cons_append, List.cons_append, List.append_assoc, ← hText]

/-- Targets that are read are spelled by the tokens up to the closing brace. -/
theorem readTargets_spelled {opener : Token} {block : String} {tokens rest : List Token}
    {targets : List (String × Int)}
    (hRead : readTargets opener block tokens = .ok (targets, rest)) :
    ∃ spelling, tokens = spelling ++ rest ∧ TargetsSpelled spelling targets := by
  fun_induction readTargets opener block tokens generalizing targets with
  | case1 => cases hRead
  | case2 token rest₀ hClose =>
      cases hRead
      exact ⟨[token], rfl, TargetsSpelled.close hClose⟩
  | case3 => cases hRead
  | case4 token rest₀ hClose hEof hSeparator ih =>
      obtain ⟨spelling, rfl, hSpelled⟩ := ih hRead
      exact ⟨token :: spelling, rfl, TargetsSpelled.separator (by simpa using hSeparator) hSpelled⟩
  | case5 => cases hRead
  | case6 => cases hRead
  | case7 token rest₀ hClose hEof hSeparator hName weight rest' hWeight targets' final hRead' ih =>
      cases hRead
      obtain ⟨spelling, rfl, hSpelled⟩ := ih hRead'
      rcases readWeight_eq_ok hWeight with ⟨rfl, rfl⟩ | ⟨found, rfl, hKind, hFits, hSign, rfl⟩
      · exact ⟨token :: spelling, rfl, TargetsSpelled.plain hName hSpelled⟩
      · exact ⟨token :: found :: spelling, rfl,
          TargetsSpelled.weighted hName hKind hFits hSign hSpelled⟩
  | case8 => cases hRead

theorem readRandom_spelled {opener name : Token} {tokens rest : List Token} {event : Event}
    (hOpener : opener.isKeyword "random" = true) (hName : name.isName = true)
    (hRead : readRandom opener name tokens = .ok (event, rest)) :
    ∃ spelling, opener :: name :: tokens = spelling ++ rest ∧
      EventSpelled .top event spelling .top := by
  obtain ⟨brace, more, targets, rfl, hBrace, hTargets, rfl⟩ := readRandom_eq_ok hRead
  obtain ⟨spelling, rfl, hSpelled⟩ := readTargets_spelled hTargets
  exact ⟨opener :: name :: brace :: spelling, rfl,
    EventSpelled.random hOpener hName hBrace hSpelled⟩

/-! ### What a step consumes -/

theorem readCall_event_spelled {block : Section} {opener name paren : Token}
    {front rest rest' : List Token} {call : Call} (hFront : PrefixSpelled front)
    (hName : name.kind = .ident) (hParen : paren.kind = .lparen)
    (hRead : readCall name rest = .ok (call, rest')) :
    ∃ spelling, front ++ name :: paren :: rest = spelling ++ rest' ∧
      EventSpelled (.inside block opener) (.call call) spelling (.inside block opener) := by
  obtain ⟨args, goto, semicolon, rfl, hCall, hArgs, hGoto, hEnd⟩ := readCall_spelled hRead
  refine ⟨front ++ name :: paren :: args ++ goto ++ semicolon, by simp, ?_⟩
  exact EventSpelled.call hFront hName hCall hParen hArgs hGoto hEnd

/-- A step outside of the blocks consumes what spells its event. -/
theorem TopStep.spelled {token : Token} {rest rest' : List Token} {event : Event} {scope : Scope}
    (taken : TopStep token rest event scope rest') :
    ∃ spelling, token :: rest = spelling ++ rest' ∧ EventSpelled .top event spelling scope := by
  cases taken with
  | @main brace _ hKeyword hBrace =>
      exact ⟨[token, brace], rfl, EventSpelled.openMain hKeyword hBrace⟩
  | @state name brace _ hKeyword hName hBrace =>
      exact ⟨[token, name, brace], rfl, EventSpelled.openState hKeyword hName hBrace⟩
  | random hKeyword hName hRead => exact readRandom_spelled hKeyword hName hRead
  | attr hKey hRead =>
      simp only [Token.isKeyBefore, Bool.and_eq_true, decide_eq_true_eq] at hKey
      exact readAttribute_spelled hKey.1.1.1.1 trivial hRead

/-- A step inside of a block consumes what spells its event. -/
theorem BlockStep.spelled {block : Section} {opener token : Token} {rest rest' : List Token}
    {event : Event} {scope : Scope} (taken : BlockStep block opener token rest event scope rest') :
    ∃ spelling, token :: rest = spelling ++ rest' ∧
      EventSpelled (.inside block opener) event spelling scope := by
  cases taken with
  | close hBrace => exact ⟨[token], rfl, EventSpelled.close hBrace⟩
  | @desc text rest hKeyword hText =>
      obtain ⟨semicolon, hTokens, hEnd⟩ := skipSemicolon_spelled rest
      refine ⟨token :: text :: semicolon, ?_, EventSpelled.desc hKeyword hText hEnd⟩
      rw [List.cons_append, List.cons_append, ← hTokens]
  | keywordCall hKeyword hName hParen hRead =>
      exact readCall_event_spelled (PrefixSpelled.keyword hKeyword) hName hParen hRead
  | call hName hParen hRead =>
      exact readCall_event_spelled PrefixSpelled.absent hName hParen hRead
  | attr hBlock hKey hKnown hParen hRead =>
      exact readAttribute_spelled hKey ⟨hBlock, hKnown⟩ hRead

/-- A step consumes the spelling of its event and nothing else. -/
theorem step_spelled {scope scope' : Scope} {token : Token} {rest rest' : List Token}
    {event : Event} (hStep : step scope token rest = .event event scope' rest') :
    ∃ spelling, token :: rest = spelling ++ rest' ∧ EventSpelled scope event spelling scope' := by
  cases scope with
  | top => exact (stepTop_cases hStep).spelled
  | inside block opener => exact (stepInside_cases hStep).spelled

/-- Only semicolons are skipped. -/
theorem step_skip_kind {scope : Scope} {token : Token} {rest : List Token}
    (hStep : step scope token rest = .skip) : token.kind = .semi := by
  cases scope with
  | top =>
      simp only [step, stepTop, openState, Step.ofReading] at hStep
      grind
  | inside block opener =>
      simp only [step, stepInside, Step.ofReading] at hStep
      grind

/-- The reading is finished outside of the blocks only, at the end of the script. -/
theorem step_finished {scope : Scope} {token : Token} {rest : List Token}
    (hStep : step scope token rest = .finished) : scope = .top ∧ token.kind = .eof := by
  cases scope with
  | top =>
      simp only [step, stepTop, openState, Step.ofReading] at hStep
      grind
  | inside block opener =>
      simp only [step, stepInside, Step.ofReading] at hStep
      grind

/-! ### Counting tokens -/

def countKind (kind : Kind) (tokens : List Token) : Nat :=
  tokens.countP fun token => token.kind = kind

@[simp] theorem countKind_nil (kind : Kind) : countKind kind [] = 0 := rfl

@[simp] theorem countKind_cons (kind : Kind) (token : Token) (tokens : List Token) :
    countKind kind (token :: tokens) =
      countKind kind tokens + if token.kind = kind then 1 else 0 := by
  simp [countKind, List.countP_cons]

@[simp] theorem countKind_append (kind : Kind) (left right : List Token) :
    countKind kind (left ++ right) = countKind kind left + countKind kind right := by
  simp [countKind, List.countP_append]

/-- The classes that give a script its structure: the parentheses that open calls, the braces, and
the end. -/
def Kind.isStructural : Kind → Bool
  | .lparen => true
  | .lbrace => true
  | .rbrace => true
  | .eof => true
  | _ => false

/-- Tokens without structure count for no parenthesis and no brace. -/
theorem countKind_eq_zero {kind : Kind} {tokens : List Token} (hKind : kind.isStructural = true)
    (hTokens : ∀ token ∈ tokens, token.kind.isStructural = false) : countKind kind tokens = 0 := by
  rw [countKind, List.countP_eq_zero]
  intro token hMem hEq
  rw [decide_eq_true_eq] at hEq
  simpa [hEq, hKind] using hTokens token hMem

theorem countKind_cons_of_plain {kind : Kind} {token : Token} (tokens : List Token)
    (hKind : kind.isStructural = true) (hToken : token.kind.isStructural = false) :
    countKind kind (token :: tokens) = countKind kind tokens := by
  have hNe : token.kind ≠ kind := fun hEq => by simp [hEq, hKind] at hToken
  rw [countKind_cons, if_neg hNe, Nat.add_zero]

theorem Token.isStructural_of_isName {token : Token} (hName : token.isName = true) :
    token.kind.isStructural = false := by
  rcases Token.kind_of_isName hName with hKind | hKind <;> rw [hKind] <;> rfl

theorem Token.isStructural_of_isArgument {token : Token} (hArg : token.isArgument = true) :
    token.kind.isStructural = false := by
  simp only [Token.isArgument, Bool.or_eq_true, decide_eq_true_eq] at hArg
  rcases hArg with hName | hKind
  · exact Token.isStructural_of_isName hName
  · rw [hKind]
    rfl

/-- Arguments hold neither braces nor opening parentheses, so counting these counts blocks and
calls. -/
theorem ArgumentsSpelled.isStructural {tokens : List Token} {args : List Arg}
    (spelled : ArgumentsSpelled tokens args) :
    ∀ token ∈ tokens, token.kind.isStructural = false := by
  induction spelled with
  | last hFirst hMore hClose =>
      intro token hMem
      simp only [List.mem_append, List.mem_cons, List.not_mem_nil, or_false] at hMem
      rcases hMem with (rfl | hMem) | rfl
      · exact Token.isStructural_of_isArgument hFirst
      · exact Token.isStructural_of_isArgument (hMore token hMem)
      · rw [hClose]
        rfl
  | next hFirst hMore hComma rest ih =>
      intro token hMem
      simp only [List.mem_append, List.mem_cons] at hMem
      rcases hMem with (rfl | hMem) | rfl | hMem
      · exact Token.isStructural_of_isArgument hFirst
      · exact Token.isStructural_of_isArgument (hMore token hMem)
      · rw [hComma]
        rfl
      · exact ih token hMem

/-- An argument list is spelled without tokens that are counted. Its closing parenthesis is none
of these, as only the opening ones are. -/
theorem ArgumentListSpelled.isStructural {tokens : List Token} {args : List Arg}
    (spelled : ArgumentListSpelled tokens args) :
    ∀ token ∈ tokens, token.kind.isStructural = false := by
  cases spelled with
  | empty hClose => simp [hClose, Kind.isStructural]
  | args spelled => exact spelled.isStructural

theorem GotoSpelled.isStructural {tokens : List Token} {goto : Option String}
    (spelled : GotoSpelled tokens goto) :
    ∀ token ∈ tokens, token.kind.isStructural = false := by
  cases spelled with
  | absent => simp
  | @clause keyword target hKeyword hTarget hLine =>
      have hPlain : keyword.kind.isStructural = false := by
        rw [Token.isKeyword_kind hKeyword]
        rfl
      simp [hPlain, Token.isStructural_of_isName hTarget]

theorem SemicolonSpelled.isStructural {tokens : List Token} {ended : Bool}
    (spelled : SemicolonSpelled tokens ended) :
    ∀ token ∈ tokens, token.kind.isStructural = false := by
  cases spelled with
  | absent => simp
  | present hKind => simp [hKind, Kind.isStructural]

theorem isArgument_of_isLooseValue {key value : Token} (hLoose : isLooseValue key value = true) :
    value.isArgument = true := by
  simp only [isLooseValue] at hLoose
  simp only [Token.isArgument, Token.isName]
  grind

theorem ValueSpelled.isStructural {key : Token} {tokens : List Token} {value : Option Arg}
    (spelled : ValueSpelled key tokens value) :
    ∀ token ∈ tokens, token.kind.isStructural = false := by
  cases spelled with
  | absent => simp
  | loose hLoose => simp [Token.isStructural_of_isArgument (isArgument_of_isLooseValue hLoose)]
  | @assigned equals value hEquals hValue =>
      have hPlain : equals.kind.isStructural = false := by
        rw [hEquals]
        rfl
      simp [hPlain, Token.isStructural_of_isArgument hValue]

theorem PrefixSpelled.isStructural {tokens : List Token} (spelled : PrefixSpelled tokens) :
    ∀ token ∈ tokens, token.kind.isStructural = false := by
  cases spelled with
  | absent => simp
  | keyword hKeyword =>
      have hKind := hKeyword.elim Token.isKeyword_kind Token.isKeyword_kind
      simp [hKind, Kind.isStructural]

/-- The targets of a random block count for one closing brace. -/
theorem TargetsSpelled.countKind_eq {kind : Kind} (hKind : kind.isStructural = true)
    {tokens : List Token} {targets : List (String × Int)} (spelled : TargetsSpelled tokens targets) :
    countKind kind tokens = if kind = .rbrace then 1 else 0 := by
  induction spelled with
  | close hClose => simp [hClose, eq_comm]
  | separator hSeparator rest ih =>
      rw [countKind_cons_of_plain _ hKind (by rcases hSeparator with h | h <;> rw [h] <;> rfl), ih]
  | plain hName rest ih =>
      rw [countKind_cons_of_plain _ hKind (Token.isStructural_of_isName hName), ih]
  | weighted hName hWeight hFits hSign rest ih =>
      rw [countKind_cons_of_plain _ hKind (Token.isStructural_of_isName hName),
        countKind_cons_of_plain _ hKind (by rw [hWeight]; rfl), ih]

/-- How many tokens of a structural class an event is spelled with. -/
def Event.marks (kind : Kind) : Event → Nat
  | .attr .. => 0
  | .openMain _ => if kind = .lbrace then 1 else 0
  | .openState .. => if kind = .lbrace then 1 else 0
  | .desc .. => 0
  | .call _ => if kind = .lparen then 1 else 0
  | .close => if kind = .rbrace then 1 else 0
  | .random .. => if kind = .lbrace ∨ kind = .rbrace then 1 else 0

/-- What spells an event has as many tokens of a kind that is counted as the event stands for. -/
theorem EventSpelled.countKind_eq {kind : Kind} (hKind : kind.isStructural = true)
    {scope scope' : Scope} {event : Event} {tokens : List Token}
    (spelled : EventSpelled scope event tokens scope') :
    countKind kind tokens = event.marks kind := by
  cases spelled with
  | attr hKey hScope spelledValue spelledEnd =>
      rw [countKind_append, countKind_cons_of_plain _ hKind (by rw [hKey]; rfl),
        countKind_eq_zero hKind spelledValue.isStructural,
        countKind_eq_zero hKind spelledEnd.isStructural]
      rfl
  | openMain hOpener hBrace =>
      rw [countKind_cons_of_plain _ hKind (by rw [Token.isKeyword_kind hOpener]; rfl)]
      simp [hBrace, Event.marks, eq_comm]
  | openState hOpener hName hBrace =>
      rw [countKind_cons_of_plain _ hKind (by rw [Token.isKeyword_kind hOpener]; rfl),
        countKind_cons_of_plain _ hKind (Token.isStructural_of_isName hName)]
      simp [hBrace, Event.marks, eq_comm]
  | desc hKeyword hText spelledEnd =>
      rw [countKind_cons_of_plain _ hKind (by rw [Token.isKeyword_kind hKeyword]; rfl),
        countKind_cons_of_plain _ hKind (by rw [hText]; rfl),
        countKind_eq_zero hKind spelledEnd.isStructural]
      rfl
  | call hFront hName hCall hParen spelledArgs spelledGoto spelledEnd =>
      rw [countKind_append, countKind_append, countKind_append,
        countKind_eq_zero hKind hFront.isStructural,
        countKind_cons_of_plain _ hKind (by rw [hName]; rfl), countKind_cons,
        countKind_eq_zero hKind spelledArgs.isStructural,
        countKind_eq_zero hKind spelledGoto.isStructural,
        countKind_eq_zero hKind spelledEnd.isStructural]
      simp [hParen, Event.marks, eq_comm]
  | close hBrace => simp [hBrace, Event.marks, eq_comm]
  | random hOpener hName hBrace spelled =>
      rw [countKind_cons_of_plain _ hKind (by rw [Token.isKeyword_kind hOpener]; rfl),
        countKind_cons_of_plain _ hKind (Token.isStructural_of_isName hName), countKind_cons,
        spelled.countKind_eq hKind, hBrace]
      cases kind <;> simp [Event.marks]

/-- The tokens of a structural class are those that spell the events. -/
theorem ScriptSpelled.countKind_eq {kind : Kind} (hKind : kind.isStructural = true)
    (hEof : kind ≠ .eof) {scope : Scope} {events : List Event} {tokens : List Token}
    (spelled : ScriptSpelled scope events tokens) :
    countKind kind tokens = (events.map (Event.marks kind)).sum := by
  induction spelled with
  | finished hFinal => simp [hFinal, hEof.symm]
  | skip hSemi rest ih => rw [countKind_cons_of_plain _ hKind (by rw [hSemi]; rfl), ih]
  | event first rest ih =>
      rw [countKind_append, first.countKind_eq hKind, ih, List.map_cons, List.sum_cons]

/-! ### The whole script -/

theorem Complete.tail {token : Token} {rest : List Token} (complete : Complete (token :: rest))
    (hKind : token.kind ≠ .eof) : Complete rest := by
  cases complete with
  | final hEof => exact absurd hEof hKind
  | cons _ rest => exact rest

theorem Complete.eq_nil {token : Token} {rest : List Token} (complete : Complete (token :: rest))
    (hKind : token.kind = .eof) : rest = [] := by
  cases complete with
  | final _ => rfl
  | cons hToken _ => exact absurd hKind hToken

theorem Complete.of_append {spelling rest : List Token} (complete : Complete (spelling ++ rest))
    (hSpelling : countKind .eof spelling = 0) : Complete rest := by
  induction spelling with
  | nil => exact complete
  | cons token spelling ih =>
      rw [countKind_cons] at hSpelling
      have hToken : token.kind ≠ .eof := by
        intro hKind
        simp [hKind] at hSpelling
      exact ih (complete.tail hToken) (by omega)

/-- No event spells the end of the script. -/
theorem EventSpelled.countKind_eof {scope scope' : Scope} {event : Event} {tokens : List Token}
    (spelled : EventSpelled scope event tokens scope') : countKind .eof tokens = 0 := by
  rw [spelled.countKind_eq rfl]
  cases event <;> rfl

/-- Tokens without a fault are the spelling of their events. -/
theorem outlineFrom_spelled {scope : Scope} {tokens : List Token} {events : List Event}
    (complete : Complete tokens) (hOutline : outlineFrom scope tokens = ⟨events, none⟩) :
    ScriptSpelled scope events tokens := by
  fun_induction outlineFrom scope tokens generalizing events with
  | case1 scope => cases complete
  | case2 scope token rest hStep =>
      cases hOutline
      obtain ⟨rfl, hKind⟩ := step_finished hStep
      rw [complete.eq_nil hKind]
      exact ScriptSpelled.finished hKind
  | case3 scope token rest fault hStep => cases hOutline
  | case4 scope token rest hStep ih =>
      have hKind := step_skip_kind hStep
      exact ScriptSpelled.skip hKind (ih (complete.tail (by rw [hKind]; nofun)) hOutline)
  | case5 scope token rest event scope' rest' hStep ih =>
      obtain ⟨spelling, hText, hSpelled⟩ := step_spelled hStep
      rw [hText] at complete ⊢
      obtain ⟨events', rfl⟩ : ∃ events', events = event :: events' := by
        rw [Outline.cons, Outline.mk.injEq] at hOutline
        exact ⟨_, hOutline.1.symm⟩
      refine ScriptSpelled.event hSpelled (ih (complete.of_append hSpelled.countKind_eof) ?_)
      rw [Outline.cons, Outline.mk.injEq, List.cons.injEq] at hOutline
      rw [← hOutline.1.2, ← hOutline.2]

end QuestScript.Script

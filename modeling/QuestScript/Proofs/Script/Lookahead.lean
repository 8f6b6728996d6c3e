import QuestScript.Proofs.Script.Steps
/-!
How far the reading of a script looks ahead. What a step reads depends on the tokens that it
consumes and on the one after them, and on nothing further on; so while that one stays, the tokens
behind can be exchanged, and the events that were read before stay the same.
-/

namespace QuestScript.Script

/-- The next token is seen through any tokens in front of it. -/
theorem nextToken_append (front : List Token) {rest rest' : List Token}
    (hNext : nextToken rest' = nextToken rest) :
    nextToken (front ++ rest') = nextToken (front ++ rest) := by
  cases front with
  | nil => exact hNext
  | cons token front => rfl

/-! ### Parts of events -/

/-- What is read from some tokens depends on those that it consumes and on the next one. -/
def Local {α : Type} (read : List Token → Reading α) : Prop :=
  ∀ tokens value rest, read tokens = .ok (value, rest) →
    ∃ consumed, tokens = consumed ++ rest ∧
      ∀ rest', nextToken rest' = nextToken rest → read (consumed ++ rest') = .ok (value, rest')

/-- A semicolon is skipped by looking at the one next token. -/
theorem skipSemicolon_local (tokens : List Token) :
    ∃ consumed, tokens = consumed ++ skipSemicolon tokens ∧
      ∀ rest', nextToken rest' = nextToken (skipSemicolon tokens) →
        skipSemicolon (consumed ++ rest') = rest' ∧
          startsSemicolon (consumed ++ rest') = startsSemicolon tokens := by
  rcases skipSemicolon_cases tokens with ⟨token, rest, rfl, hKind, hSkip, _⟩ | ⟨hNone, hSkip, hStarts⟩
  · refine ⟨[token], by rw [hSkip]; rfl, fun rest' _ => ⟨?_, rfl⟩⟩
    rw [List.singleton_append, skipSemicolon, if_pos hKind]
  · refine ⟨[], by rw [hSkip, List.nil_append], fun rest' hNext => ?_⟩
    rw [hSkip] at hNext
    rw [List.nil_append, hStarts]
    exact skipSemicolon_of_ne (by rwa [hNext])

/-- A goto clause is read from its own two tokens. Where there is none, the next token shows it.
-/
theorem readGoto_local (call : Token) : Local (readGoto call) := by
  intro tokens goto rest hRead
  rcases readGoto_eq_ok hRead with
    ⟨rfl, rfl, hNone⟩ | ⟨keyword, target, rfl, hKeyword, hTarget, hLine, rfl⟩
  · exact ⟨[], rfl, fun rest' hNext => readGoto_absent (by rwa [List.nil_append, hNext])⟩
  · exact ⟨[keyword, target], rfl, fun rest' _ => by simp [readGoto, hKeyword, hTarget, hLine]⟩

/-- A call is read from its own tokens and the one behind them, since that may be a semicolon or
begin a goto clause. -/
theorem readCall_local (name : Token) : Local (readCall name) := by
  intro tokens call rest hRead
  obtain ⟨args, afterArgs, goto, afterGoto, hArgs, hGoto, rfl, rfl⟩ := readCall_eq_ok hRead
  obtain ⟨argTokens, rfl, spelled⟩ := readArgumentList_spelled hArgs
  obtain ⟨gotoTokens, rfl, hGotoLocal⟩ := readGoto_local name _ _ _ hGoto
  obtain ⟨semicolon, hText, hSemicolon⟩ := skipSemicolon_local afterGoto
  refine ⟨argTokens ++ (gotoTokens ++ semicolon), ?_, fun rest' hNext => ?_⟩
  · rw [List.append_assoc, List.append_assoc, ← hText]
  have hAfter : nextToken (semicolon ++ rest') = nextToken afterGoto := by
    rw [nextToken_append semicolon hNext, ← hText]
  obtain ⟨hSkip, hStarts⟩ := hSemicolon rest' hNext
  rw [List.append_assoc, List.append_assoc, readCall, spelled.read]
  simp only [hGotoLocal _ hAfter, hSkip, hStarts]

/-- A value of an attribute is read from its own tokens and the one behind them. -/
theorem readValue_local (key : Token) : Local (readValue key) := by
  intro tokens value rest hRead
  rcases readValue_eq_ok hRead with ⟨rfl, rfl, hNoEquals, hNoValue⟩ |
    ⟨token, rfl, hEquals, hLoose, rfl⟩ | ⟨equals, token, rfl, hEquals, hValue, rfl⟩
  · refine ⟨[], rfl, fun rest' hNext => readValue_absent ?_ ?_⟩
    · rwa [List.nil_append, hNext]
    · rwa [List.nil_append, hNext]
  · exact ⟨[token], rfl, fun rest' _ => by simp [readValue, hEquals, hLoose]⟩
  · exact ⟨[equals, token], rfl, fun rest' _ => by simp [readValue, hEquals, hValue]⟩

theorem readAttribute_local (key : Token) : Local (readAttribute key) := by
  intro tokens event rest hRead
  obtain ⟨value, afterValue, hValue, rfl, rfl⟩ := readAttribute_eq_ok hRead
  obtain ⟨valueTokens, rfl, hValueLocal⟩ := readValue_local key _ _ _ hValue
  obtain ⟨semicolon, hText, hSemicolon⟩ := skipSemicolon_local afterValue
  refine ⟨valueTokens ++ semicolon, ?_, fun rest' hNext => ?_⟩
  · rw [List.append_assoc, ← hText]
  have hAfter : nextToken (semicolon ++ rest') = nextToken afterValue := by
    rw [nextToken_append semicolon hNext, ← hText]
  rw [List.append_assoc, readAttribute, hValueLocal _ hAfter]
  simp only [(hSemicolon rest' hNext).1]

/-- A random block is read up to its closing brace, and what is behind that does not matter. -/
theorem readRandom_local (opener name : Token) : Local (readRandom opener name) := by
  intro tokens event rest hRead
  obtain ⟨brace, more, targets, rfl, hBrace, hTargets, rfl⟩ := readRandom_eq_ok hRead
  obtain ⟨spelling, rfl, spelled⟩ := readTargets_spelled hTargets
  refine ⟨brace :: spelling, rfl, fun rest' _ => ?_⟩
  rw [List.cons_append, readRandom, if_pos hBrace, spelled.read]

/-! ### Steps -/

/-- A step whose event is read locally consumes what this reading does. -/
theorem Local.step {read : List Token → Reading Event} (isLocal : Local read) (scope : Scope)
    {tokens final : List Token} {event : Event} (hRead : read tokens = .ok (event, final)) :
    ∃ consumed, tokens = consumed ++ final ∧ ∀ final', nextToken final' = nextToken final →
      Step.ofReading scope (read (consumed ++ final')) = .event event scope final' := by
  obtain ⟨consumed, hTokens, hLocal⟩ := isLocal _ _ _ hRead
  refine ⟨consumed, hTokens, fun final' hNext => ?_⟩
  rw [hLocal final' hNext]
  rfl

theorem callEvent_local (name : Token) : Local fun tokens => callEvent (readCall name tokens) := by
  intro tokens event rest hRead
  obtain ⟨call, hCall, rfl⟩ := callEvent_eq_ok hRead
  obtain ⟨consumed, hText, hLocal⟩ := readCall_local name _ _ _ hCall
  exact ⟨consumed, hText, fun rest' hNext => congrArg callEvent (hLocal rest' hNext)⟩

/-- A step outside of the blocks depends on the tokens it consumes and on the next one. -/
theorem TopStep.isLocal {token : Token} {rest final : List Token} {event : Event} {scope : Scope}
    (taken : TopStep token rest event scope final) :
    ∃ consumed, rest = consumed ++ final ∧ ∀ final', nextToken final' = nextToken final →
      step .top token (consumed ++ final') = .event event scope final' := by
  cases taken with
  | @main brace _ hKeyword hBrace => exact ⟨[brace], rfl, fun final' _ => step_main hKeyword hBrace⟩
  | @state name brace _ hKeyword hName hBrace =>
      exact ⟨[name, brace], rfl, fun final' _ => step_state hKeyword hName hBrace⟩
  | @random name _ _ _ hKeyword hName hRead =>
      obtain ⟨consumed, rfl, hLocal⟩ := (readRandom_local token name).step .top hRead
      refine ⟨name :: consumed, rfl, fun final' hNext => ?_⟩
      exact (step_randomName hKeyword hName).trans (hLocal final' hNext)
  | attr hKey hRead =>
      obtain ⟨consumed, rfl, hLocal⟩ := (readAttribute_local token).step .top hRead
      refine ⟨consumed, rfl, fun final' hNext => (step_key ?_).trans (hLocal final' hNext)⟩
      rwa [nextToken_append consumed hNext]

/-- A step inside of a block depends on the tokens it consumes and on the next one. -/
theorem BlockStep.isLocal {block : Section} {opener token : Token} {rest final : List Token}
    {event : Event} {scope : Scope} (taken : BlockStep block opener token rest event scope final) :
    ∃ consumed, rest = consumed ++ final ∧ ∀ final', nextToken final' = nextToken final →
      step (.inside block opener) token (consumed ++ final') = .event event scope final' := by
  cases taken with
  | close hBrace => exact ⟨[], rfl, fun final' _ => step_close hBrace⟩
  | @desc text rest hKeyword hText =>
      obtain ⟨semicolon, hRest, hSemicolon⟩ := skipSemicolon_local rest
      refine ⟨text :: semicolon, congrArg (text :: ·) hRest, fun final' hNext => ?_⟩
      rw [List.cons_append, step_desc_skip hKeyword hText, (hSemicolon final' hNext).1]
  | @keywordCall name paren _ _ _ hKeyword hName hParen hRead =>
      obtain ⟨consumed, rfl, hLocal⟩ := (callEvent_local name).step (.inside block opener)
        (congrArg callEvent hRead)
      refine ⟨name :: paren :: consumed, rfl, fun final' hNext => ?_⟩
      exact (step_keyword_call hKeyword hName hParen).trans (hLocal final' hNext)
  | @call paren _ _ _ hName hParen hRead =>
      obtain ⟨consumed, rfl, hLocal⟩ := (callEvent_local token).step (.inside block opener)
        (congrArg callEvent hRead)
      refine ⟨paren :: consumed, rfl, fun final' hNext => ?_⟩
      exact (step_call hName hParen).trans (hLocal final' hNext)
  | attr hBlock hKey hKnown hParen hRead =>
      subst hBlock
      obtain ⟨consumed, rfl, hLocal⟩ := (readAttribute_local token).step (.inside .main opener) hRead
      refine ⟨consumed, rfl, fun final' hNext => ?_⟩
      have hParen' : (nextToken (consumed ++ final')).kind ≠ .lparen := by
        rwa [nextToken_append consumed hNext]
      exact (step_knownKey hKey hKnown hParen').trans (hLocal final' hNext)

/-- What a step reads depends on the tokens that it consumes and on the next one. -/
theorem step_local {scope scope' : Scope} {token : Token} {rest final : List Token} {event : Event}
    (hStep : step scope token rest = .event event scope' final) :
    ∃ consumed, rest = consumed ++ final ∧ ∀ final', nextToken final' = nextToken final →
      step scope token (consumed ++ final') = .event event scope' final' := by
  cases scope with
  | top => exact (stepTop_cases hStep).isLocal
  | inside block opener => exact (stepInside_cases hStep).isLocal

/-! ### Runs -/

/-- The reading of tokens in a scope comes to other tokens in another scope, with the events that it
has read on the way. -/
inductive Reaches : Scope → List Token → List Event → Scope → List Token → Prop where
  | here {scope : Scope} {tokens : List Token} : Reaches scope tokens [] scope tokens
  | skip {scope scope' : Scope} {token : Token} {rest final : List Token} {events : List Event}
      (hKind : token.kind = .semi) (more : Reaches scope rest events scope' final) :
      Reaches scope (token :: rest) events scope' final
  | event {scope scope' scope'' : Scope} {token : Token} {rest rest' final : List Token}
      {event : Event} {events : List Event}
      (hStep : step scope token rest = .event event scope' rest')
      (more : Reaches scope' rest' events scope'' final) :
      Reaches scope (token :: rest) (event :: events) scope'' final

def Outline.prepend (events : List Event) (outline : Outline) : Outline :=
  ⟨events ++ outline.events, outline.fault⟩

theorem step_semicolon {token : Token} (hKind : token.kind = .semi) (scope : Scope)
    (rest : List Token) : step scope token rest = .skip := by
  cases scope with
  | top => simp [step, stepTop, hKind]
  | inside block opener => simp [step, stepInside, hKind]

/-- A semicolon between events is passed over. -/
theorem outlineFrom_semicolon {token : Token} (hKind : token.kind = .semi) (scope : Scope)
    (rest : List Token) : outlineFrom scope (token :: rest) = outlineFrom scope rest := by
  rw [outlineFrom_cons, step_semicolon hKind]

theorem outlineFrom_skipSemicolon (scope : Scope) (tokens : List Token) :
    outlineFrom scope (skipSemicolon tokens) = outlineFrom scope tokens := by
  cases tokens with
  | nil => rfl
  | cons token rest =>
      by_cases hKind : token.kind = .semi
      · rw [skipSemicolon, if_pos hKind, outlineFrom_semicolon hKind]
      · rw [skipSemicolon, if_neg hKind]

namespace Reaches

variable {scope scope' : Scope} {tokens final : List Token} {events : List Event}

/-- What was read on the way stands in front of what is read from there on. -/
theorem outlineFrom (reaches : Reaches scope tokens events scope' final) :
    Script.outlineFrom scope tokens = (Script.outlineFrom scope' final).prepend events := by
  induction reaches with
  | here => rfl
  | skip hKind _ ih => rw [outlineFrom_semicolon hKind, ih]
  | event hStep _ ih =>
      rw [outlineFrom_cons, hStep]
      simp only [ih]
      rfl

/-- The way to some tokens depends on the tokens before them and on the first one of them. -/
theorem exchange (reaches : Reaches scope tokens events scope' final) :
    ∃ consumed, tokens = consumed ++ final ∧ ∀ final', nextToken final' = nextToken final →
      Reaches scope (consumed ++ final') events scope' final' := by
  induction reaches with
  | here => exact ⟨[], rfl, fun final' _ => here⟩
  | @skip scope scope' token rest final events hKind _ ih =>
      obtain ⟨consumed, rfl, hReaches⟩ := ih
      exact ⟨token :: consumed, rfl, fun final' hNext => skip hKind (hReaches final' hNext)⟩
  | @event scope scope' scope'' token rest rest' final event events hStep _ ih =>
      obtain ⟨more, rfl, hReaches⟩ := ih
      obtain ⟨consumed, rfl, hLocal⟩ := step_local hStep
      refine ⟨token :: (consumed ++ more), by simp, fun final' hNext => ?_⟩
      have hTaken := hLocal (more ++ final') (nextToken_append more hNext)
      rw [List.cons_append, List.append_assoc]
      exact Reaches.event hTaken (hReaches final' hNext)

end Reaches

end QuestScript.Script

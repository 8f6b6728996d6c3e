import QuestScript.Proofs.Quest.RoundTrip
/-!
Attributes that are the keyword of a block and have no value. Where more of the script comes after such
a key, the next word is taken for the name of a block: the script is not read any more, unless that word
is the one of the main block, which is then read as a state or a random block and lost.
-/

namespace QuestScript

open Script (Delimited Kind Piece Position Symbol TargetsSpelled Token WellLaid layout nextToken
  place readTargets tokensFrom)

/-! ### Steps -/

namespace Script

/-- The keyword of a block with a name needs a brace after the name. -/
theorem step_swallow {key name : Token} {rest : List Token}
    (hKey : key.isKeyword "state" = true ∨ key.isKeyword "random" = true)
    (hName : name.isName = true) (hBrace : (nextToken rest).kind ≠ .lbrace) :
    ∃ fault, step .top key (name :: rest) = .failure fault := by
  rcases hKey with hState | hRandom
  · exact ⟨_, by rw [step_stateName hState hName, openState, if_neg hBrace]⟩
  · obtain ⟨fault, hRead⟩ : ∃ fault, readRandom key name rest = .error fault := by
      cases rest with
      | nil => exact ⟨_, rfl⟩
      | cons brace rest =>
          have hKind : brace.kind ≠ .lbrace := hBrace
          exact ⟨_, by rw [readRandom, if_neg hKind]⟩
    exact ⟨fault, by rw [step_randomName hRandom hName, hRead]; rfl⟩

/-- Names before a closing brace are random targets of weight one. -/
theorem targetsSpelled_names {names : List Token} (hNames : ∀ name ∈ names, name.isName = true)
    {close : Token} (hClose : close.kind = .rbrace) :
    TargetsSpelled (names ++ [close]) (names.map fun name => (name.value, 1)) := by
  induction names with
  | nil => exact TargetsSpelled.close hClose
  | cons name names ih =>
      obtain ⟨hName, hRest⟩ := List.forall_mem_cons.1 hNames
      exact TargetsSpelled.plain hName (ih hRest)

/-- A parenthesis among the targets of a random block is a fault. -/
theorem readTargets_paren {opener : Token} {block : String} {names : List Token}
    (hNames : ∀ name ∈ names, name.isName = true) {paren : Token} (hParen : paren.kind = .lparen)
    (rest : List Token) : ∃ fault, readTargets opener block (names ++ paren :: rest) = .error fault := by
  induction names with
  | nil =>
      refine ⟨.atToken (.expected (.targetIn block) paren) paren, ?_⟩
      rw [List.nil_append, readTargets]
      simp [hParen, Token.isName]
  | cons name names ih =>
      obtain ⟨hName, hRest⟩ := List.forall_mem_cons.1 hNames
      obtain ⟨fault, hRead⟩ := ih hRest
      have hNext : (nextToken (names ++ paren :: rest)).kind ≠ .number := by
        cases names with
        | nil => simp [nextToken, hParen]
        | cons next names =>
            exact Token.kind_ne_of_isName (hRest next (by simp)) (by decide) (by decide)
      refine ⟨fault, ?_⟩
      rw [List.cons_append, readTargets_name hName (readWeight_absent hNext), hRead]
      rfl

/-- A random block whose names run into a parenthesis is refused. -/
theorem step_random_fails {opener name brace paren : Token} {names rest : List Token}
    (hOpener : opener.isKeyword "random" = true) (hName : name.isName = true)
    (hBrace : brace.kind = .lbrace) (hNames : ∀ other ∈ names, other.isName = true)
    (hParen : paren.kind = .lparen) :
    ∃ fault, step .top opener (name :: brace :: (names ++ paren :: rest)) = .failure fault := by
  obtain ⟨fault, hTargets⟩ :
      ∃ fault, readTargets opener name.value (names ++ paren :: rest) = .error fault :=
    readTargets_paren hNames hParen rest
  refine ⟨fault, ?_⟩
  rw [step_randomName hOpener hName, readRandom, if_pos hBrace, hTargets]
  rfl

end Script

/-! ### The rest of a script -/

variable {schema : Schema} {pad : String} {quest : Quest}

/-- Whatever is read from a text has the main block that the quest has already. -/
def KeepsMain (schema : Schema) (quest : Quest) (text : List Char) : Prop :=
  ∀ position again, (Stage.top quest).resumeText schema position text = some again →
    again.main = quest.main

/-- A text that leads on to another quest keeps the main block when the rest does. -/
theorem KeepsMain.of_leads {quest' : Quest} {text text' : List Char}
    (leads : Leads schema (.top quest) text (.top quest') text') (hMain : quest'.main = quest.main)
    (keeps : KeepsMain schema quest' text') : KeepsMain schema quest text := by
  intro position again hAgain
  obtain ⟨position', hLeads⟩ := leads position
  rw [hLeads] at hAgain
  exact (keeps position' again hAgain).trans hMain

theorem KeepsMain.of_fails {text : List Char} (fails : Fails schema (.top quest) text) :
    KeepsMain schema quest text := by
  intro position again hAgain
  rw [fails position] at hAgain
  cases hAgain

/-- Pieces that keep the main block may be put in front, wherever they stand and whatever tokens
follow. -/
theorem KeepsMain.of_layout {pieces : List Piece} {text : List Char} (hLaid : WellLaid text pieces)
    (hTokens : ∀ position tokens, ∃ quest' : Quest, quest'.main = quest.main ∧
      (Stage.top quest).resume schema (place position pieces ++ tokens) =
        (Stage.top quest').resume schema tokens)
    (keeps : ∀ quest, KeepsMain schema quest text) :
    KeepsMain schema quest (layout pieces ++ text) := by
  intro position again hAgain
  rw [Stage.resumeText, Script.tokensFrom_layout position hLaid] at hAgain
  cases hRest : tokensFrom (position.advance (layout pieces)) text with
  | error fault =>
      rw [hRest] at hAgain
      cases hAgain
  | ok tokens =>
      obtain ⟨quest', hMain, hResume⟩ := hTokens position tokens
      rw [hRest] at hAgain
      have hLater : (Stage.top quest').resumeText schema (position.advance (layout pieces)) text =
          some again := by
        rw [Stage.resumeText, hRest]
        exact hResume.symm.trans hAgain
      exact (keeps quest' _ again hLater).trans hMain

theorem KeepsMain.section {text : String} {sections : List String} {rest : List Char}
    (keeps : KeepsMain schema quest (text.toList ++ '\n' :: (sectionText sections ++ rest))) :
    KeepsMain schema quest (sectionText (text :: sections) ++ rest) := by
  rw [sectionText_cons, List.append_assoc, List.append_assoc]
  exact KeepsMain.of_leads (Leads.gaps lineEnd_gaps) rfl keeps

/-- Random blocks keep the main block, be there one or none. -/
theorem KeepsMain.random {blocks : List RandomBlock} (hReadable : ∀ block ∈ blocks, block.Readable)
    (hPad : IsPad pad) : KeepsMain schema quest (sectionText (blocks.map (RandomBlock.print pad))) := by
  induction blocks generalizing quest with
  | nil =>
      intro position again hAgain
      rw [List.map_nil, Stage.resumeText_gaps schema quest position (by simp [sectionText])] at hAgain
      cases hAgain
      rfl
  | cons block blocks ih =>
      obtain ⟨hFirst, hRest⟩ := List.forall_mem_cons.1 hReadable
      rw [← List.append_nil (sectionText _), List.map_cons]
      refine KeepsMain.section ?_
      rw [List.append_nil]
      by_cases hFresh : block.name ∈ quest.random.map RandomBlock.name
      · exact KeepsMain.of_fails (hFirst.fails_repeated hPad hFresh _)
      · exact KeepsMain.of_leads (hFirst.leads hPad hFresh _) rfl (ih hRest)

/-- States keep the main block, whatever they hold, and even when one of them cannot be read. -/
theorem KeepsMain.states {states : List State} (hReadable : ∀ state ∈ states, state.Readable schema)
    (hPad : IsPad pad) (hTexts : ∀ state ∈ states, Quotable state.name) {rest : List Char}
    (keeps : ∀ quest, KeepsMain schema quest rest) :
    KeepsMain schema quest (sectionText (states.map (State.print schema pad)) ++ rest) := by
  induction states generalizing quest with
  | nil => exact keeps quest
  | cons state states ih =>
      obtain ⟨hFirst, hRest⟩ := List.forall_mem_cons.1 hReadable
      obtain ⟨hName, hNames⟩ := List.forall_mem_cons.1 hTexts
      rw [List.map_cons]
      refine KeepsMain.section ?_
      by_cases hSeams : SeamFree schema state.toStatements
      · by_cases hFresh : state.name ∈ quest.stateNames
        · exact KeepsMain.of_fails (hFirst.fails_repeated hPad hName hFresh _)
        · exact KeepsMain.of_leads (hFirst.leads_state hPad hName hFresh hSeams _) rfl
            (ih hRest hNames)
      · exact KeepsMain.of_fails (hFirst.fails_state hPad hName hSeams _)

/-! ### Words after a loose key -/

/-- A block key begins a state or a random block, in whatever case its letters are. -/
theorem isBlockKey_placedAt {key : String} (hKey : isBlockKey key = true) (position : Position) :
    ((⟨.ident, key⟩ : Symbol).placedAt position).isKeyword "state" = true ∨
      ((⟨.ident, key⟩ : Symbol).placedAt position).isKeyword "random" = true := by
  have hWord : Text.lowered key = "state" ∨ Text.lowered key = "random" := by
    simpa [isBlockKey] using hKey
  exact hWord.imp (fun h => isKeyword_placedAt h position) fun h => isKeyword_placedAt h position

/-- A word after a loose key is taken for the name of a block, which needs a brace. -/
theorem Fails.swallow {key : String} (hKey : IsIdentifier key) (hBlock : isBlockKey key = true)
    (gap : List Char) (hGap : ∀ c ∈ gap, Script.isGapChar c = true) {word : String}
    (hWord : IsIdentifier word) {rest : List Char} (hDelimited : Delimited rest)
    (hBrace : Meets rest fun symbol => symbol.kind ≠ .lbrace) :
    Fails schema (.top quest) (key.toList ++ '\n' :: (gap ++ (word.toList ++ rest))) := by
  let pieces : List Piece :=
    [.symbol ⟨.ident, key⟩, lineEnd, .gap gap, .symbol ⟨.ident, word⟩]
  have hLaid : WellLaid rest pieces :=
    ⟨isIdentifier_wellFormed hKey, delimited_lineEnd _ _, lineEnd_gaps, hGap,
      isIdentifier_wellFormed hWord, hDelimited _, trivial⟩
  have hLayout : key.toList ++ '\n' :: (gap ++ (word.toList ++ rest)) = layout pieces ++ rest := by
    simp [pieces, Piece.source, Symbol.source, lineEnd]
  rw [hLayout]
  refine Fails.of_layout hLaid ?_
  intro position tokens hTokens
  have hNext : (nextToken tokens).kind ≠ .lbrace := hBrace _ tokens hTokens
  obtain ⟨fault, hStep⟩ := Script.step_swallow (isBlockKey_placedAt hBlock position)
    (rfl : ((⟨.ident, word⟩ : Symbol).placedAt
      (((position.advance key.toList).advance ['\n']).advance gap)).isName = true) hNext
  exact Stage.resume_failure hStep

/-- Another key after a loose key. -/
theorem ExtraReadable.fails_after {key : String} (hKey : IsIdentifier key)
    (hBlock : isBlockKey key = true) {entry : String × Option Param} (hEntry : ExtraReadable entry)
    {rest : List Char} (hNext : Meets rest BeginsLine) :
    Fails schema (.top quest)
      (key.toList ++ '\n' :: ((printExtra entry).toList ++ '\n' :: rest)) := by
  obtain ⟨word, value⟩ := entry
  have hWord : IsIdentifier word := hEntry.key
  cases value with
  | none =>
      refine Fails.swallow hKey hBlock [] (by simp) hWord (delimited_lineEnd rest) ?_
      refine Meets.lineEnd (hNext.mono ?_)
      intro symbol hBegins
      rcases hBegins with hKind | hKind <;> simp [hKind]
  | some param =>
      have hText : (printExtra (word, some param)).toList ++ '\n' :: rest =
          word.toList ++ (' ' :: ("=".toList ++ (' ' :: (param.print.toList ++ '\n' :: rest)))) := by
        simp [printExtra]
      rw [hText]
      refine Fails.swallow hKey hBlock [] (by simp) hWord (delimited_space _) ?_
      have hEquals : (⟨.equals, "="⟩ : Symbol).WellFormed := ⟨by decide, by decide⟩
      exact Meets.space (Meets.symbol hEquals (Kind.endsBefore_of_ne (by decide) (by decide) _)
        (by decide))

/-- A block with a name after a loose key. -/
theorem Fails.swallow_header {key word name : String} (hKey : IsIdentifier key)
    (hBlock : isBlockKey key = true) (hWord : IsIdentifier word) (hName : Quotable name)
    (lines : List String) (rest : List Char) :
    Fails schema (.top quest) (key.toList ++ '\n' :: ('\n' ::
      ((printBlock (word ++ " " ++ inQuotes name) lines).toList ++ '\n' :: rest))) := by
  rw [textOf_printBlock]
  have hText : (word ++ " " ++ inQuotes name ++ " \x7b").toList ++ '\n' ::
        (textOf lines ++ ("\x7d".toList ++ '\n' :: rest)) =
      word.toList ++ (' ' :: ((⟨.string, name⟩ : Symbol).source ++
        (" \x7b".toList ++ '\n' :: (textOf lines ++ ("\x7d".toList ++ '\n' :: rest))))) := by
    simp [inQuotes, Symbol.source]
  rw [hText]
  refine Fails.swallow hKey hBlock ['\n'] lineEnd_gaps hWord (delimited_space _) ?_
  have hForm : (⟨.string, name⟩ : Symbol).WellFormed := ⟨hName, by simp⟩
  exact Meets.space
    (Meets.symbol hForm (Kind.endsBefore_of_ne (by simp) (by simp) _) (by simp))

/-! ### The main block after a loose key -/

/-- The pieces from a loose key to the first line of the main block after it. -/
def swallowPieces (key : String) : List Piece :=
  [.symbol ⟨.ident, key⟩, lineEnd, lineEnd, .symbol ⟨.ident, "Main"⟩, space, mark .lbrace "\x7b",
    lineEnd]

/-- The loose key, the empty line and the first line of the main block are laid out as pieces. -/
theorem layout_swallowPieces (key : String) (rest : List Char) :
    key.toList ++ '\n' :: ('\n' :: ("Main \x7b".toList ++ '\n' :: rest)) =
      layout (swallowPieces key) ++ rest := by
  simp [swallowPieces, Piece.source, Symbol.source, lineEnd, space, mark]

theorem wellLaid_swallowPieces {key : String} (hKey : IsIdentifier key) (rest : List Char) :
    WellLaid rest (swallowPieces key) :=
  ⟨isIdentifier_wellFormed hKey, delimited_lineEnd _ _, lineEnd_gaps, lineEnd_gaps,
    ⟨by decide, by decide⟩, delimited_space _ _, space_gaps,
    wellLaid_mark mark_lbrace_wellFormed (by decide) (by decide) (wellLaid_lineEnd rest)⟩

/-- After the keyword of a state the main block is opened as a state. -/
theorem LeadsInto.swallow_main {key : String} (hKey : IsIdentifier key)
    (hState : Text.lowered key = "state") (rest : List Char) :
    LeadsInto schema quest (key.toList ++ '\n' :: ('\n' :: ("Main \x7b".toList ++ '\n' :: rest)))
      (.state "Main") rest := by
  rw [layout_swallowPieces]
  refine LeadsInto.of_layout (wellLaid_swallowPieces hKey rest) fun position tokens =>
    ⟨(⟨.ident, key⟩ : Symbol).placedAt position, ?_⟩
  exact Stage.resume_event (Script.step_state (isKeyword_placedAt hState _) rfl rfl)
    Takes.openState

/-- The main block is lost after the keyword of a state. -/
theorem State.Readable.keepsMain_state {main : State} (hMain : main.Readable schema)
    (hPad : IsPad pad) {key : String} (hKey : IsIdentifier key)
    (hState : Text.lowered key = "state") (hFresh : "Main" ∉ quest.stateNames) {rest : List Char}
    (keeps : ∀ quest, KeepsMain schema quest rest) :
    KeepsMain schema quest (key.toList ++ '\n' ::
      ('\n' :: ((main.printMain schema pad).toList ++ '\n' :: rest))) := by
  rw [State.printMain, textOf_printBlock]
  have hInto : LeadsInto schema quest _ (.state "Main")
      (textOf (main.bodyLines schema pad) ++ ("\x7d".toList ++ '\n' :: rest)) :=
    LeadsInto.swallow_main hKey hState _
  by_cases hSeams : SeamFree schema main.toStatements
  · let lost : Quest :=
      { quest with states := quest.states ++ [{ main.normal schema with name := "Main" }] }
    have hBody (opener : Token) : Leads schema (.inside quest (.opened (.state "Main") opener))
        (textOf (main.bodyLines schema pad) ++ ("\x7d".toList ++ '\n' :: rest)) (.top lost)
        rest := by
      refine hMain.leads_block hPad hSeams (.state "Main") (fun name hName => ?_) opener rest
      cases hName
      exact hFresh
    exact KeepsMain.of_leads (hInto.leads hBody) rfl (keeps lost)
  · exact KeepsMain.of_fails (hInto.fails fun opener => hMain.fails_body hPad hSeams rest)

/-- The pieces of the description of a block, none if it is empty. -/
def State.descPieces (pad : String) (state : State) : List Piece :=
  if state.description.isEmpty then [] else QuestScript.descPieces pad state.description

theorem State.layout_descPieces (pad : String) (state : State) :
    layout (state.descPieces pad) = textOf (state.descLines pad) := by
  rw [State.descPieces, State.descLines]
  split
  · rfl
  · rw [QuestScript.layout_descPieces, textOf_cons, textOf_nil]

/-- The pieces of a description can be read when the description can. -/
theorem State.Readable.wellLaid_descPieces {state : State} (hState : state.Readable schema)
    (hPad : IsPad pad) (rest : List Char) : WellLaid rest (state.descPieces pad) := by
  rw [State.descPieces]
  split
  · trivial
  · exact QuestScript.wellLaid_descPieces hState.description hPad rest

/-- All tokens of a description count as names, which is why a random block swallows them. -/
theorem State.isName_descPieces (pad : String) (state : State) (position : Position) :
    ∀ token ∈ place position (state.descPieces pad), token.isName = true := by
  rw [State.descPieces]
  split
  · simp [place]
  · intro token hMem
    rcases List.mem_cons.1 hMem with rfl | hMem
    · rfl
    · rw [List.mem_singleton.1 hMem]
      rfl

/-- The tokens from a loose key to the first line of the main block after it. -/
theorem place_swallowPieces (key : String) (pieces : List Piece) (position : Position) :
    ∃ name brace inner, place position (swallowPieces key ++ pieces) =
        (⟨.ident, key⟩ : Symbol).placedAt position :: name :: brace :: place inner pieces ∧
      name.kind = .ident ∧ name.value = "Main" ∧ brace.kind = .lbrace := by
  rw [Script.place_append]
  exact ⟨_, _, _, rfl, rfl, rfl, rfl⟩

/-- A main block without calls is read as a random block after its keyword. -/
theorem State.Readable.keepsMain_swallow {main : State} (hMain : main.Readable schema)
    (hPad : IsPad pad) {key : String} (hKey : IsIdentifier key)
    (hRandom : Text.lowered key = "random") (hFresh : "Main" ∉ quest.random.map RandomBlock.name)
    {rest : List Char} (keeps : ∀ quest, KeepsMain schema quest rest) :
    KeepsMain schema quest (layout (swallowPieces key) ++
      (textOf (main.descLines pad) ++ ("\x7d".toList ++ '\n' :: rest))) := by
  let tail : List Piece := [mark .rbrace "\x7d", lineEnd]
  have hLaid : WellLaid rest (swallowPieces key ++ (main.descPieces pad ++ tail)) :=
    Script.wellLaid_append.2 ⟨wellLaid_swallowPieces hKey _,
      Script.wellLaid_append.2 ⟨hMain.wellLaid_descPieces hPad _,
        wellLaid_mark mark_rbrace_wellFormed (by decide) (by decide) (wellLaid_lineEnd rest)⟩⟩
  have hLayout : layout (swallowPieces key) ++
        (textOf (main.descLines pad) ++ ("\x7d".toList ++ '\n' :: rest)) =
      layout (swallowPieces key ++ (main.descPieces pad ++ tail)) ++ rest := by
    simp only [Script.layout_append, State.layout_descPieces, List.append_assoc]
    rfl
  rw [hLayout]
  refine KeepsMain.of_layout hLaid (fun position tokens => ?_) keeps
  obtain ⟨name, brace, inner, hPlace, hKind, hValue, hBrace⟩ :=
    place_swallowPieces key (main.descPieces pad ++ tail) position
  -- Words and texts alone are targets without weights.
  let names := place inner (main.descPieces pad)
  let close := (⟨.rbrace, "\x7d"⟩ : Symbol).placedAt (inner.advance (layout (main.descPieces pad)))
  have hTargets : TargetsSpelled (names ++ [close]) (names.map fun name => (name.value, 1)) :=
    Script.targetsSpelled_names (main.isName_descPieces pad inner) rfl
  have hName : name.isName = true := by simp [Token.isName, hKind]
  have hStep : Script.step .top _ (name :: brace :: (names ++ [close] ++ tokens)) = _ :=
    Script.step_random (isKeyword_placedAt hRandom position) hName hBrace hTargets
  rw [hValue] at hStep
  let block := RandomBlock.ofTargets "Main" (names.map fun name => (name.value, 1))
  refine ⟨{ quest with random := quest.random ++ [block] }, rfl, ?_⟩
  rw [hPlace, Script.place_append]
  exact Stage.resume_event hStep (Takes.random hFresh)

/-- A main block with calls is no random block. -/
theorem State.Readable.fails_swallow {main : State} (hMain : main.Readable schema)
    (hPad : IsPad pad) {key : String} (hKey : IsIdentifier key)
    (hRandom : Text.lowered key = "random") {statement : Statement} (hStatement : statement.Readable schema)
    (rest : List Char) :
    Fails schema (.top quest) (layout (swallowPieces key) ++
      (textOf (main.descLines pad) ++ ((pad ++ statement.print schema).toList ++ rest))) := by
  obtain ⟨text, hText⟩ := statement.print_cons schema
  let tail : List Piece := [.gap pad.toList, .symbol ⟨.ident, statement.type⟩, mark .lparen "("]
  have hTail : WellLaid (text ++ rest) tail :=
    ⟨hPad.gaps, isIdentifier_wellFormed hStatement.type, delimited_paren _ _,
      wellLaid_mark ⟨by decide, by decide⟩ (by decide) (by decide) trivial⟩
  have hLaid : WellLaid (text ++ rest) (swallowPieces key ++ (main.descPieces pad ++ tail)) :=
    Script.wellLaid_append.2 ⟨wellLaid_swallowPieces hKey _,
      Script.wellLaid_append.2 ⟨hMain.wellLaid_descPieces hPad _, hTail⟩⟩
  have hLayout : layout (swallowPieces key) ++
        (textOf (main.descLines pad) ++ ((pad ++ statement.print schema).toList ++ rest)) =
      layout (swallowPieces key ++ (main.descPieces pad ++ tail)) ++ (text ++ rest) := by
    simp only [Script.layout_append, State.layout_descPieces, List.append_assoc,
      String.toList_append, hText, List.cons_append]
    simp [tail, Piece.source, Symbol.source, mark]
  rw [hLayout]
  refine Fails.of_layout hLaid ?_
  intro position tokens _
  obtain ⟨name, brace, inner, hPlace, hKind, _, hBrace⟩ :=
    place_swallowPieces key (main.descPieces pad ++ tail) position
  have hName : name.isName = true := by simp [Token.isName, hKind]
  let start := (inner.advance (layout (main.descPieces pad))).advance pad.toList
  let called := (⟨.ident, statement.type⟩ : Symbol).placedAt start
  let paren := (⟨.lparen, "("⟩ : Symbol).placedAt (start.advance statement.type.toList)
  have hNames : ∀ other ∈ place inner (main.descPieces pad) ++ [called], other.isName = true :=
    List.forall_mem_append.2 ⟨main.isName_descPieces pad inner, List.forall_mem_singleton.2 rfl⟩
  have hParen : paren.kind = .lparen := rfl
  obtain ⟨fault, hStep⟩ : ∃ fault, Script.step .top _ (name :: brace ::
      (place inner (main.descPieces pad) ++ [called] ++ paren :: tokens)) = .failure fault :=
    Script.step_random_fails (isKeyword_placedAt hRandom position) hName hBrace hNames hParen
  rw [List.append_assoc] at hStep
  rw [hPlace, Script.place_append]
  have hTokens : place (inner.advance (layout (main.descPieces pad))) tail = [called, paren] := rfl
  rw [hTokens, List.cons_append, List.cons_append, List.cons_append, List.append_assoc]
  exact Stage.resume_failure hStep

/-- The main block is lost after the keyword of a random block. -/
theorem State.Readable.keepsMain_random {main : State} (hMain : main.Readable schema)
    (hPad : IsPad pad) {key : String} (hKey : IsIdentifier key)
    (hRandom : Text.lowered key = "random") (hFresh : "Main" ∉ quest.random.map RandomBlock.name)
    {rest : List Char} (keeps : ∀ quest, KeepsMain schema quest rest) :
    KeepsMain schema quest (key.toList ++ '\n' ::
      ('\n' :: ((main.printMain schema pad).toList ++ '\n' :: rest))) := by
  have hHeader : "Main" ++ " \x7b" = "Main \x7b" := rfl
  rw [State.printMain, textOf_printBlock, hHeader, layout_swallowPieces, bodyLines_eq,
    textOf_append, List.append_assoc]
  cases hStatements : main.toStatements with
  | nil =>
      exact hMain.keepsMain_swallow hPad hKey hRandom hFresh keeps
  | cons statement statements =>
      have hFirst : statement.Readable schema := hMain.statements statement (by simp [hStatements])
      rw [List.map_cons, textOf_cons, List.append_assoc]
      exact KeepsMain.of_fails (hMain.fails_swallow hPad hKey hRandom hFirst _)

/-! ### Quests with a loose key -/

/-- The first loose key of a quest, if it has one before the end of its script. -/
theorem Quest.exists_looseKey (hLoose : ¬quest.LooseKeysLast) :
    ∃ before key after, quest.extra.entries = before ++ (key, none) :: after ∧
      isBlockKey key = true ∧ (∀ entry ∈ before, isLooseKey entry = false) ∧
      ¬(after = [] ∧ quest.blocks = [] ∧ quest.random = []) := by
  simp only [Quest.LooseKeysLast, not_forall] at hLoose
  obtain ⟨entry, hMem, hEntry, hLast⟩ := hLoose
  have hSome : (quest.extra.entries.find? isLooseKey).isSome = true :=
    List.find?_isSome.2 ⟨entry, hMem, hEntry⟩
  obtain ⟨⟨key, value⟩, hFound⟩ := Option.isSome_iff_exists.1 hSome
  obtain ⟨hKey, before, after, hEntries, hBefore⟩ := List.find?_eq_some_iff_append.1 hFound
  have hFirst : ∀ other ∈ before, isLooseKey other = false := by simpa using hBefore
  obtain ⟨hNone, hBlock⟩ := Bool.and_eq_true_iff.1 hKey
  have hValue : value = none := by simpa using hNone
  subst hValue
  refine ⟨before, key, after, hEntries, hBlock, hFirst, ?_⟩
  rintro ⟨rfl, hBlocks, hRandom⟩
  refine hLast ⟨?_, hBlocks, hRandom⟩
  rw [hEntries] at hMem ⊢
  rcases List.mem_append.1 hMem with hMem | hMem
  · rw [hFirst entry hMem] at hEntry
    cases hEntry
  · rw [List.mem_singleton.1 hMem, List.getLast?_concat]

/-- The attributes up to a loose key are read as they are where it stands last. -/
theorem Quest.Readable.leads_looseKey (hQuest : quest.Readable schema)
    {before after : List (String × Option Param)} {key : String}
    (hEntries : quest.extra.entries = before ++ (key, none) :: after)
    (hBefore : ∀ entry ∈ before, isLooseKey entry = false) :
    ∃ quest' : Quest, quest'.main = none ∧ quest'.states = [] ∧ quest'.random = [] ∧
      Leads schema (.top (Quest.blank quest.id)) (quest.print schema pad).toList (.top quest')
        (key.toList ++ '\n' :: (textOf (after.map printExtra) ++
          sectionText (quest.blockSections schema pad))) := by
  have hKeys : (before.map Prod.fst).Nodup := by
    have hDistinct := quest.extra.distinct
    rw [hEntries, List.map_append] at hDistinct
    exact (List.nodup_append.1 hDistinct).1
  let front : Quest := { quest with extra := ⟨before, hKeys⟩ }
  have hMem : ∀ entry ∈ before, entry ∈ quest.extra.entries := by
    intro entry hEntry
    rw [hEntries]
    exact List.mem_append_left _ hEntry
  have hFront : front.Readable schema :=
    ⟨hQuest.name, hQuest.version, hQuest.gates, fun entry hEntry => hQuest.extra entry (hMem entry hEntry),
      hQuest.blocks, hQuest.stateTexts, hQuest.stateNames, hQuest.random, hQuest.randomNames⟩
  have hRest : ∀ entry ∈ (key, none) :: after, BeginsWithKey (printExtra entry) := by
    intro entry hEntry
    refine (hQuest.extra entry ?_).beginsWithKey
    rw [hEntries]
    exact List.mem_append_right _ hEntry
  have hNext := meets_lines hRest (meets_blockSections schema pad quest)
  have hLoose : QuestScript.LooseKeysLast front.extra.entries
      (textOf (((key, none) :: after).map printExtra) ++
        sectionText (quest.blockSections schema pad)) := by
    intro entry hEntry hKey
    rw [hBefore entry hEntry] at hKey
    cases hKey
  have hLines : quest.attributeLines =
      front.attributeLines ++ ((key, none) :: after).map printExtra := by
    rw [Quest.attributeLines, hEntries, List.map_append, ← List.append_assoc]
    rfl
  refine ⟨(front.normal schema).attributesOnly, rfl, rfl, rfl, ?_⟩
  have hLeads := hFront.leads_attributes hNext hLoose
  rw [Quest.toList_print, hLines, textOf_append, List.append_assoc]
  rw [List.map_cons, textOf_cons, List.append_assoc] at hLeads ⊢
  exact hLeads

/-- The main block behind a loose key is read as another block, so the quest keeps the one it has. -/
theorem Quest.Readable.keepsMain_sections (hQuest : quest.Readable schema) (hPad : IsPad pad)
    {key : String} (hKey : IsIdentifier key) (hBlock : isBlockKey key = true) {main : State}
    (hMain : quest.main = some main) {quest' : Quest} (hStates' : quest'.states = [])
    (hRandom' : quest'.random = []) :
    KeepsMain schema quest'
      (key.toList ++ '\n' :: sectionText (quest.blockSections schema pad)) := by
  have hReadable : main.Readable schema := hQuest.main main hMain
  have keeps (other : Quest) : KeepsMain schema other
      (sectionText (quest.states.map (State.print schema pad) ++
        quest.random.map (RandomBlock.print pad))) := by
    rw [sectionText_append]
    exact KeepsMain.states hQuest.states hPad hQuest.stateTexts
      fun _ => KeepsMain.random hQuest.random hPad
  rw [Quest.blockSections, hMain, Option.toList_some, List.map_singleton, List.singleton_append,
    sectionText_cons]
  have hWord : Text.lowered key = "state" ∨ Text.lowered key = "random" := by
    simpa [isBlockKey] using hBlock
  rcases hWord with hWord | hWord
  · exact hReadable.keepsMain_state hPad hKey hWord (by simp [Quest.stateNames, hStates']) keeps
  · exact hReadable.keepsMain_random hPad hKey hWord (by simp [hRandom']) keeps

/-- A state or a random block right behind a loose key ends the reading. -/
theorem Quest.Readable.fails_sections (hQuest : quest.Readable schema) {key : String}
    (hKey : IsIdentifier key) (hBlock : isBlockKey key = true)
    (hMore : ¬(quest.blocks = [] ∧ quest.random = [])) (hMain : quest.main = none)
    (quest' : Quest) :
    Fails schema (.top quest')
      (key.toList ++ '\n' :: sectionText (quest.blockSections schema pad)) := by
  have hState : IsIdentifier "State" := by decide +kernel
  have hRandom : IsIdentifier "random" := by decide +kernel
  rw [Quest.blockSections, hMain, Option.toList_none, List.map_nil, List.nil_append]
  cases hStates : quest.states with
  | cons state states =>
      rw [List.map_cons, List.cons_append, sectionText_cons]
      have hName := hQuest.stateTexts state (by simp [hStates])
      have hFails : Fails schema (.top quest') _ :=
        Fails.swallow_header hKey hBlock hState hName (state.bodyLines schema pad)
          (sectionText (states.map (State.print schema pad) ++
            quest.random.map (RandomBlock.print pad)))
      exact hFails
  | nil =>
      cases hBlocks : quest.random with
      | cons block blocks =>
          rw [List.map_nil, List.nil_append, List.map_cons, sectionText_cons]
          have hName := (hQuest.random block (by simp [hBlocks])).name
          have hFails : Fails schema (.top quest') _ :=
            Fails.swallow_header hKey hBlock hRandom hName
              (block.targets.map fun target => pad ++ target.print)
              (sectionText (blocks.map (RandomBlock.print pad)))
          exact hFails
      | nil => exact absurd ⟨by simp [Quest.blocks, hMain, hStates], hBlocks⟩ hMore

/-- The sections behind a loose key: the main block is lost, and nothing is read where there is none. -/
theorem Quest.Readable.lost_sections (hQuest : quest.Readable schema) (hPad : IsPad pad)
    {key : String} (hKey : IsIdentifier key) (hBlock : isBlockKey key = true)
    (hMore : ¬(quest.blocks = [] ∧ quest.random = [])) {quest' : Quest} (hStates' : quest'.states = [])
    (hRandom' : quest'.random = []) :
    KeepsMain schema quest'
        (key.toList ++ '\n' :: sectionText (quest.blockSections schema pad)) ∧
      (quest.main = none → Fails schema (.top quest')
        (key.toList ++ '\n' :: sectionText (quest.blockSections schema pad))) := by
  have hFails (hMain : quest.main = none) : Fails schema (.top quest')
      (key.toList ++ '\n' :: sectionText (quest.blockSections schema pad)) :=
    hQuest.fails_sections hKey hBlock hMore hMain quest'
  refine ⟨?_, hFails⟩
  cases hMain : quest.main with
  | some main => exact hQuest.keepsMain_sections hPad hKey hBlock hMain hStates' hRandom'
  | none => exact KeepsMain.of_fails (hFails hMain)

/-- Where a loose key is not the last word, the main block is lost if anything is read at all. -/
theorem Quest.Readable.main_of_looseKey (hQuest : quest.Readable schema) (hPad : IsPad pad)
    (hLoose : ¬quest.LooseKeysLast) {again : Quest}
    (hAgain : (Stage.top (Quest.blank quest.id)).resumeText schema .start
      (quest.print schema pad).toList = some again) :
    again.main = none ∧ quest.main ≠ none := by
  obtain ⟨before, key, after, hEntries, hBlock, hBefore, hMore⟩ := quest.exists_looseKey hLoose
  obtain ⟨quest', hMain', hStates', hRandom', hLeads⟩ := hQuest.leads_looseKey hEntries hBefore
  have hKey : IsIdentifier key := (hQuest.extra (key, none) (by simp [hEntries])).key
  have hLost : KeepsMain schema quest' (key.toList ++ '\n' :: (textOf (after.map printExtra) ++
        sectionText (quest.blockSections schema pad))) ∧
      (quest.main = none → Fails schema (.top quest') (key.toList ++ '\n' ::
        (textOf (after.map printExtra) ++ sectionText (quest.blockSections schema pad)))) := by
    cases after with
    | nil => exact hQuest.lost_sections hPad hKey hBlock (by simpa using hMore) hStates' hRandom'
    | cons entry after =>
        have hEntry := hQuest.extra entry (by simp [hEntries])
        have hRest : ∀ other ∈ after, BeginsWithKey (printExtra other) :=
          fun other hMem => (hQuest.extra other (by simp [hEntries, hMem])).beginsWithKey
        have hNext := meets_lines hRest (meets_blockSections schema pad quest)
        rw [List.map_cons, textOf_cons, List.append_assoc]
        have hFails : Fails schema (.top quest') _ := hEntry.fails_after hKey hBlock hNext
        exact ⟨KeepsMain.of_fails hFails, fun _ => hFails⟩
  obtain ⟨position, hPosition⟩ := hLeads .start
  rw [hPosition] at hAgain
  refine ⟨(hLost.1 position again hAgain).trans hMain', ?_⟩
  intro hMain
  rw [hLost.2 hMain position] at hAgain
  cases hAgain

end QuestScript

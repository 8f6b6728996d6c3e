import QuestScript.Proofs.Quest.CallLines
/-!
The lines of blocks, and how they are read again: headers, descriptions, closing braces, and random
blocks with their targets.
-/

namespace QuestScript

open Script (Kind Phrase Piece Position Symbol TargetsSpelled Token WellLaid layout nextToken place
  tokensFrom)

variable {schema : Schema} {pad : String} {quest : Quest} {current : OpenBlock}

theorem mark_lbrace_wellFormed : (⟨.lbrace, "\x7b"⟩ : Symbol).WellFormed := ⟨by decide, by decide⟩

theorem mark_rbrace_wellFormed : (⟨.rbrace, "\x7d"⟩ : Symbol).WellFormed := ⟨by decide, by decide⟩

/-! ### Inside of a block -/

def descPieces (pad text : String) : List Piece :=
  [.gap pad.toList, .symbol ⟨.ident, "desc"⟩, space, .symbol ⟨.string, text⟩, lineEnd]

/-- The pieces of a description are its line. -/
theorem layout_descPieces (pad text : String) :
    layout (descPieces pad text) = (pad ++ "desc " ++ inQuotes text).toList ++ ['\n'] := by
  simp [descPieces, inQuotes, Piece.source, Symbol.source, space, lineEnd]

theorem wellLaid_descPieces {text : String} (hText : Quotable text) (hPad : IsPad pad)
    (rest : List Char) : WellLaid rest (descPieces pad text) :=
  ⟨hPad.gaps, ⟨by decide, by decide⟩, delimited_space _ _, space_gaps,
    ⟨hText, by simp⟩, Kind.endsBefore_of_ne (by simp) (by simp) _, lineEnd_gaps, trivial⟩

/-- The line of a description is read as the description. -/
theorem Leads.desc {text : String} (hText : Quotable text) (hPad : IsPad pad) {rest : List Char}
    (hNext : Meets rest NoSemicolon) :
    Leads schema (.inside quest current)
      ((pad ++ "desc " ++ inQuotes text).toList ++ '\n' :: rest)
      (.inside quest (current.describe text)) rest := by
  have hLayout : (pad ++ "desc " ++ inQuotes text).toList ++ '\n' :: rest =
      layout (descPieces pad text) ++ rest := by
    rw [layout_descPieces, List.append_assoc, List.singleton_append]
  rw [hLayout]
  refine Leads.of_layout (wellLaid_descPieces hText hPad rest) ?_
  intro position tokens hTokens
  have hNoSemicolon : (nextToken tokens).kind ≠ .semi := hNext _ tokens hTokens
  exact Stage.resume_event
    (Script.step_desc (isKeyword_placedAt (by decide) _) rfl hNoSemicolon) Takes.desc

/-- The quest after a block is closed. -/
def OpenBlock.closeInto (current : OpenBlock) (quest : Quest) : Quest :=
  match current.block with
  | .main => { quest with main := some current.state }
  | .state _ => { quest with states := quest.states ++ [current.state] }

/-- The closing brace of a block adds it to the quest, whatever comes behind it. -/
theorem Leads.brace (hFresh : ∀ name, current.block = .state name → name ∉ quest.stateNames)
    (rest : List Char) :
    Leads schema (.inside quest current) ("\x7d".toList ++ rest) (.top (current.closeInto quest))
      rest := by
  have hLayout : "\x7d".toList ++ rest = layout [mark .rbrace "\x7d"] ++ rest := rfl
  rw [hLayout]
  refine Leads.of_layout
    (wellLaid_mark mark_rbrace_wellFormed (by decide) (by decide) trivial) ?_
  intro position tokens hTokens
  refine Stage.resume_event (Script.step_close rfl) ?_
  cases hBlock : current.block with
  | main =>
      rw [OpenBlock.closeInto, hBlock]
      exact Takes.closeMain hBlock
  | state name =>
      rw [OpenBlock.closeInto, hBlock]
      exact Takes.closeState hBlock (hFresh name hBlock)

/-- The closing line of a block adds it to the quest. -/
theorem Leads.close (hFresh : ∀ name, current.block = .state name → name ∉ quest.stateNames)
    (rest : List Char) :
    Leads schema (.inside quest current) ("\x7d".toList ++ '\n' :: rest)
      (.top (current.closeInto quest)) rest :=
  (Leads.brace hFresh _).trans (Leads.gaps lineEnd_gaps)

/-- The closing brace of a state whose name the quest has already ends the reading. -/
theorem Fails.close {name : String} (hBlock : current.block = .state name)
    (hRepeated : name ∈ quest.stateNames) (rest : List Char) :
    Fails schema (.inside quest current) ("\x7d".toList ++ '\n' :: rest) := by
  have hLayout : "\x7d".toList ++ '\n' :: rest =
      layout [mark .rbrace "\x7d", lineEnd] ++ rest := rfl
  rw [hLayout]
  refine Fails.of_layout
    (wellLaid_mark mark_rbrace_wellFormed (by decide) (by decide) (wellLaid_lineEnd rest)) ?_
  intro position tokens hTokens
  refine Stage.resume_refused (Script.step_close rfl) ?_
  intro quest' current' takes
  change Takes schema quest (some current) .close quest' current' at takes
  cases takes with
  | closeMain hMain =>
      rw [hBlock] at hMain
      cases hMain
  | closeState hState hFresh =>
      rw [hBlock] at hState
      cases hState
      exact hFresh hRepeated

/-- Actions added one after the other come behind those that the block has. -/
theorem foldl_addTo_actions (schema : Schema) (actions : List Action) (current : OpenBlock) :
    (actions.map Statement.action).foldl (Statement.addTo schema) current =
      { current with
        state :=
          { current.state with
            actions := current.state.actions ++ actions.map (Action.normal schema) } } := by
  induction actions generalizing current with
  | nil => simp
  | cons action actions ih =>
      rw [List.map_cons, List.foldl_cons, ih]
      simp [Statement.addTo, OpenBlock.addAction]

theorem foldl_addTo_rules (schema : Schema) (rules : List Rule) (current : OpenBlock) :
    (rules.map Statement.rule).foldl (Statement.addTo schema) current =
      { current with
        state :=
          { current.state with
            rules := current.state.rules ++ rules.map (Rule.normal schema) } } := by
  induction rules generalizing current with
  | nil => simp
  | cons rule rules ih =>
      rw [List.map_cons, List.foldl_cons, ih]
      simp [Statement.addTo, OpenBlock.addRule]

/-- A block with the content that comes back from a state. -/
def OpenBlock.filled (schema : Schema) (current : OpenBlock) (state : State) : OpenBlock :=
  state.toStatements.foldl (Statement.addTo schema)
    (if state.description.isEmpty then current else current.describe state.description)

/-- Filling a block that was just opened gives the normal form of the state, under the name of the
block. -/
theorem OpenBlock.filled_opened (schema : Schema) (block : Script.Section) (opener : Token)
    (state : State) :
    ((OpenBlock.opened block opener).filled schema state).state =
        { state.normal schema with name := block.name } ∧
      ((OpenBlock.opened block opener).filled schema state).block = block := by
  rw [filled, State.toStatements, List.foldl_append, foldl_addTo_rules, foldl_addTo_actions]
  by_cases hEmpty : state.description.isEmpty = true
  · have hDescription : state.description = "" := by simpa using hEmpty
    rw [if_pos hEmpty]
    constructor
    · simp [opened, State.named, State.normal, hDescription]
    · rfl
  · rw [if_neg hEmpty]
    constructor
    · simp [opened, describe, State.named, State.normal]
    · rfl

/-- The body of a state is its description and its calls, the actions before the rules. -/
theorem bodyLines_eq (schema : Schema) (pad : String) (state : State) :
    state.bodyLines schema pad = state.descLines pad ++
      state.toStatements.map fun statement => pad ++ statement.print schema := by
  rw [State.bodyLines, State.toStatements, List.map_append, List.append_assoc, List.map_map,
    List.map_map]
  rfl

theorem State.Readable.statements {state : State} (hState : state.Readable schema) :
    ∀ statement ∈ state.toStatements, statement.Readable schema := by
  intro statement hMem
  rcases List.mem_append.1 hMem with hMem | hMem
  · obtain ⟨action, hAction, rfl⟩ := List.mem_map.1 hMem
    exact hState.actions action hAction
  · obtain ⟨rule, hRule, rfl⟩ := List.mem_map.1 hMem
    exact hState.rules rule hRule

/-- The closing brace of a block is none of the tokens that a line could run into. -/
theorem meets_brace (rest : List Char) :
    Meets ("\x7d".toList ++ rest) NoSemicolon ∧ Meets ("\x7d".toList ++ rest) NoGoto :=
  ⟨Meets.symbol mark_rbrace_wellFormed (Kind.endsBefore_of_ne (by decide) (by decide) _)
      (by simp [NoSemicolon]),
    Meets.symbol mark_rbrace_wellFormed (Kind.endsBefore_of_ne (by decide) (by decide) _)
      (by simp [NoGoto])⟩

/-- No line of the calls of a block begins with a semicolon. -/
theorem meets_statements {statements : List Statement}
    (hStatements : ∀ statement ∈ statements, statement.Readable schema) (hPad : IsPad pad)
    {rest : List Char} (hNext : Meets rest NoSemicolon) :
    Meets (textOf (statements.map fun statement => pad ++ statement.print schema) ++ rest)
      NoSemicolon := by
  cases statements with
  | nil => exact hNext
  | cons statement statements =>
      rw [List.map_cons, textOf_cons, List.append_assoc]
      exact (hStatements statement (by simp)).meets hPad (by simp [NoSemicolon]) _

/-- The lines of a block lead to its content, up to the first call that runs into the next one. -/
theorem State.Readable.leads_desc {state : State} (hState : state.Readable schema)
    (hPad : IsPad pad) {rest : List Char} (hNext : Meets rest NoSemicolon) :
    Leads schema (.inside quest current) (textOf (state.bodyLines schema pad) ++ rest)
      (.inside quest
        (if state.description.isEmpty then current else current.describe state.description))
      (textOf (state.toStatements.map fun statement => pad ++ statement.print schema) ++ rest) := by
  rw [bodyLines_eq, textOf_append, List.append_assoc, State.descLines]
  by_cases hEmpty : state.description.isEmpty = true
  · rw [if_pos hEmpty, if_pos hEmpty]
    exact Leads.refl
  · rw [if_neg hEmpty, if_neg hEmpty, textOf_cons, textOf_nil, List.append_assoc]
    exact Leads.desc hState.description hPad (meets_statements hState.statements hPad hNext)

/-- A readable body without seams is read up to its closing brace, and fills the open block with
the state. -/
theorem State.Readable.leads_body {state : State} (hState : state.Readable schema)
    (hPad : IsPad pad) (hSeams : SeamFree schema state.toStatements) (rest : List Char) :
    Leads schema (.inside quest current)
      (textOf (state.bodyLines schema pad) ++ ("\x7d".toList ++ '\n' :: rest))
      (.inside quest (current.filled schema state)) ("\x7d".toList ++ '\n' :: rest) := by
  obtain ⟨hSemicolon, hGoto⟩ := meets_brace ('\n' :: rest)
  exact (hState.leads_desc hPad hSemicolon).trans
    (Leads.statements hState.statements hPad hSemicolon hGoto hSeams)

/-- A body with a seam is not read at all: the call behind the seam is taken for a goto clause and
refused. -/
theorem State.Readable.fails_body {state : State} (hState : state.Readable schema)
    (hPad : IsPad pad) (hSeams : ¬SeamFree schema state.toStatements) (rest : List Char) :
    Fails schema (.inside quest current)
      (textOf (state.bodyLines schema pad) ++ ("\x7d".toList ++ '\n' :: rest)) := by
  obtain ⟨hSemicolon, _⟩ := meets_brace ('\n' :: rest)
  exact (hState.leads_desc hPad hSemicolon).fails (Fails.statements hState.statements hPad hSeams)

/-! ### Headers -/

/-- Wherever a text stands, it leads into a block. -/
def LeadsInto (schema : Schema) (quest : Quest) (text : List Char) (block : Script.Section)
    (text' : List Char) : Prop :=
  ∀ position, ∃ opener position', (Stage.top quest).resumeText schema position text =
    (Stage.inside quest (.opened block opener)).resumeText schema position' text'

/-- What follows a header is read inside of its block, wherever the header stands. -/
theorem LeadsInto.leads {text text' rest : List Char} {block : Script.Section} {stage : Stage}
    (into : LeadsInto schema quest text block text')
    (leads : ∀ opener, Leads schema (.inside quest (.opened block opener)) text' stage rest) :
    Leads schema (.top quest) text stage rest := by
  intro position
  obtain ⟨opener, position', hInto⟩ := into position
  obtain ⟨position'', hLeads⟩ := leads opener position'
  exact ⟨position'', hInto.trans hLeads⟩

theorem LeadsInto.fails {text text' : List Char} {block : Script.Section}
    (into : LeadsInto schema quest text block text')
    (fails : ∀ opener, Fails schema (.inside quest (.opened block opener)) text') :
    Fails schema (.top quest) text := by
  intro position
  obtain ⟨opener, position', hInto⟩ := into position
  rw [hInto, fails opener position']

/-- Pieces that open a block, at every position and before all tokens, lead into it. -/
theorem LeadsInto.of_layout {pieces : List Piece} {text : List Char} {block : Script.Section}
    (hLaid : WellLaid text pieces)
    (hTokens : ∀ position tokens, ∃ opener,
      (Stage.top quest).resume schema (place position pieces ++ tokens) =
        (Stage.inside quest (.opened block opener)).resume schema tokens) :
    LeadsInto schema quest (layout pieces ++ text) block text := by
  intro position
  rw [Stage.resumeText, Script.tokensFrom_layout position hLaid]
  cases hRest : tokensFrom (position.advance (layout pieces)) text with
  | error fault =>
      refine ⟨⟨.eof, "", 0, 0⟩, position.advance (layout pieces), ?_⟩
      rw [Stage.resumeText, hRest]
      rfl
  | ok tokens =>
      obtain ⟨opener, hResume⟩ := hTokens position tokens
      refine ⟨opener, position.advance (layout pieces), ?_⟩
      rw [Stage.resumeText, hRest]
      exact hResume

/-- The header of the main block opens it, if the quest has none. -/
theorem LeadsInto.main (hMain : quest.main = none) (rest : List Char) :
    LeadsInto schema quest ("Main \x7b".toList ++ '\n' :: rest) .main rest := by
  let pieces : List Piece :=
    [.symbol ⟨.ident, "Main"⟩, space, mark .lbrace "\x7b", lineEnd]
  have hLaid : WellLaid rest pieces :=
    ⟨⟨by decide, by decide⟩, delimited_space _ _, space_gaps,
      wellLaid_mark mark_lbrace_wellFormed (by decide) (by decide) (wellLaid_lineEnd rest)⟩
  have hLayout : "Main \x7b".toList ++ '\n' :: rest = layout pieces ++ rest := rfl
  rw [hLayout]
  refine LeadsInto.of_layout hLaid fun position tokens =>
    ⟨(⟨.ident, "Main"⟩ : Symbol).placedAt position, ?_⟩
  exact Stage.resume_event
    (Script.step_main (isKeyword_placedAt (by decide) _) rfl) (Takes.openMain hMain)

/-- The header of a state opens it. -/
theorem LeadsInto.state {name : String} (hName : Quotable name) (rest : List Char) :
    LeadsInto schema quest (("State " ++ inQuotes name ++ " \x7b").toList ++ '\n' :: rest)
      (.state name) rest := by
  let pieces : List Piece :=
    [.symbol ⟨.ident, "State"⟩, space, .symbol ⟨.string, name⟩, space, mark .lbrace "\x7b", lineEnd]
  have hLaid : WellLaid rest pieces :=
    ⟨⟨by decide, by decide⟩, delimited_space _ _, space_gaps, ⟨hName, by simp⟩,
      Kind.endsBefore_of_ne (by simp) (by simp) _, space_gaps,
      wellLaid_mark mark_lbrace_wellFormed (by decide) (by decide) (wellLaid_lineEnd rest)⟩
  have hLayout : ("State " ++ inQuotes name ++ " \x7b").toList ++ '\n' :: rest =
      layout pieces ++ rest := by
    simp [pieces, inQuotes, Piece.source, Symbol.source, space, mark, lineEnd]
  rw [hLayout]
  refine LeadsInto.of_layout hLaid fun position tokens =>
    ⟨(⟨.ident, "State"⟩ : Symbol).placedAt position, ?_⟩
  exact Stage.resume_event
    (Script.step_state (isKeyword_placedAt (by decide) _) rfl rfl) Takes.openState

/-! ### Blocks -/

theorem joinLines_lineFeed {lines : List String} (hLines : lines ≠ []) (rest : List Char) :
    (joinLines lines).toList ++ '\n' :: rest = textOf lines ++ rest := by
  induction lines with
  | nil => exact absurd rfl hLines
  | cons line lines ih =>
      by_cases hMore : lines = []
      · simp [hMore, joinLines]
      · have hRest := ih hMore
        rw [joinLines] at hRest ⊢
        rw [String.intercalate_cons_of_ne_nil hMore, String.toList_append, String.toList_append,
          List.append_assoc, List.append_assoc, hRest, textOf_cons, List.append_assoc]
        rfl

/-- A block is printed as its header, its lines and its closing brace. -/
theorem textOf_printBlock (header : String) (lines : List String) (rest : List Char) :
    (printBlock header lines).toList ++ '\n' :: rest =
      (header ++ " \x7b").toList ++ '\n' :: (textOf lines ++ ("\x7d".toList ++ '\n' :: rest)) := by
  rw [printBlock, joinLines_lineFeed (by simp)]
  simp [List.append_assoc]

/-- The lines of a block and its brace add the block to the quest, as the section that was opened. -/
theorem State.Readable.leads_block {state : State} (hState : state.Readable schema)
    (hPad : IsPad pad) (hSeams : SeamFree schema state.toStatements) (block : Script.Section)
    (hFresh : ∀ name, block = .state name → name ∉ quest.stateNames) (opener : Token)
    (rest : List Char) :
    Leads schema (.inside quest (.opened block opener))
      (textOf (state.bodyLines schema pad) ++ ("\x7d".toList ++ '\n' :: rest))
      (.top (OpenBlock.closeInto
        { OpenBlock.opened block opener with state := { state.normal schema with name := block.name } }
        quest)) rest := by
  obtain ⟨hFilled, hBlock⟩ := OpenBlock.filled_opened schema block opener state
  have hClosed : ((OpenBlock.opened block opener).filled schema state).closeInto quest =
      OpenBlock.closeInto { OpenBlock.opened block opener with
        state := { state.normal schema with name := block.name } } quest := by
    rw [OpenBlock.closeInto, hBlock, hFilled]
    cases block <;> rfl
  rw [← hClosed]
  refine (hState.leads_body hPad hSeams rest).trans (Leads.close (fun name hName => ?_) rest)
  exact hFresh name (hBlock.symm.trans hName)

/-- The text of the main block is read as the block that comes back. -/
theorem State.Readable.leads_main {main : State} (hState : main.Readable schema) (hPad : IsPad pad)
    (hMain : quest.main = none) (hSeams : SeamFree schema main.toStatements) (rest : List Char) :
    Leads schema (.top quest) ((main.printMain schema pad).toList ++ '\n' :: rest)
      (.top { quest with main := some { main.normal schema with name := "Main" } }) rest := by
  rw [State.printMain, textOf_printBlock]
  exact (LeadsInto.main hMain _).leads fun opener =>
    hState.leads_block hPad hSeams .main (fun _ => nofun) opener rest

/-- The text of a state is read as the state that comes back. -/
theorem State.Readable.leads_state {state : State} (hState : state.Readable schema)
    (hPad : IsPad pad) (hName : Quotable state.name) (hFresh : state.name ∉ quest.stateNames)
    (hSeams : SeamFree schema state.toStatements) (rest : List Char) :
    Leads schema (.top quest) ((state.print schema pad).toList ++ '\n' :: rest)
      (.top { quest with states := quest.states ++ [state.normal schema] }) rest := by
  rw [State.print, textOf_printBlock]
  refine (LeadsInto.state hName _).leads fun opener =>
    hState.leads_block hPad hSeams (.state state.name) (fun name hSame => ?_) opener rest
  cases hSame
  exact hFresh

/-- A main block with a call that runs into the next one is not read. -/
theorem State.Readable.fails_main {main : State} (hState : main.Readable schema) (hPad : IsPad pad)
    (hMain : quest.main = none) (hSeams : ¬SeamFree schema main.toStatements)
    (rest : List Char) :
    Fails schema (.top quest) ((main.printMain schema pad).toList ++ '\n' :: rest) := by
  rw [State.printMain, textOf_printBlock]
  exact (LeadsInto.main hMain _).fails fun opener => hState.fails_body hPad hSeams rest

/-- A state with a call that runs into the next one is not read. -/
theorem State.Readable.fails_state {state : State} (hState : state.Readable schema)
    (hPad : IsPad pad) (hName : Quotable state.name) (hSeams : ¬SeamFree schema state.toStatements)
    (rest : List Char) :
    Fails schema (.top quest) ((state.print schema pad).toList ++ '\n' :: rest) := by
  rw [State.print, textOf_printBlock]
  exact (LeadsInto.state hName _).fails fun opener => hState.fails_body hPad hSeams rest

/-- A state whose name the quest has already is not read. -/
theorem State.Readable.fails_repeated {state : State} (hState : state.Readable schema)
    (hPad : IsPad pad) (hName : Quotable state.name) (hRepeated : state.name ∈ quest.stateNames)
    (rest : List Char) :
    Fails schema (.top quest) ((state.print schema pad).toList ++ '\n' :: rest) := by
  by_cases hSeams : SeamFree schema state.toStatements
  · rw [State.print, textOf_printBlock]
    refine (LeadsInto.state hName _).fails fun opener => ?_
    obtain ⟨_, hBlock⟩ := OpenBlock.filled_opened schema (.state state.name) opener state
    exact (hState.leads_body hPad hSeams rest).fails (Fails.close hBlock hRepeated rest)
  · exact hState.fails_state hPad hName hSeams rest

/-! ### Random blocks -/

/-- The weight of a target as a script gives it back. -/
def RandomTarget.entry (target : RandomTarget) : String × Int :=
  (target.state, target.weight.toInt?.getD 0)

def targetPieces (pad : String) (target : RandomTarget) : List Piece :=
  .gap pad.toList :: .symbol (nameSymbol target.state) ::
    ((if target.weight.sameValue 1 then [] else [space, mark .number target.weight.text]) ++
      [lineEnd])

def targetsPieces (pad : String) (targets : List RandomTarget) : List Piece :=
  targets.flatMap (targetPieces pad) ++ [mark .rbrace "\x7d", lineEnd]

theorem layout_targetsPieces (pad : String) (targets : List RandomTarget) (rest : List Char) :
    textOf (targets.map fun target => pad ++ target.print) ++ ("\x7d".toList ++ '\n' :: rest) =
      layout (targetsPieces pad targets) ++ rest := by
  induction targets with
  | nil => rfl
  | cons target targets ih =>
      have hTarget : (pad ++ target.print).toList ++ ['\n'] = layout (targetPieces pad target) := by
        rw [targetPieces, RandomTarget.print, Script.layout_cons, Script.layout_cons,
          Script.layout_append, Piece.source, Piece.source, source_nameSymbol]
        split <;> simp [space, mark, lineEnd, Piece.source, Symbol.source]
      have hLines : textOf ((target :: targets).map fun target => pad ++ target.print) =
          layout (targetPieces pad target) ++
            textOf (targets.map fun target => pad ++ target.print) := by
        rw [← hTarget, List.map_cons, textOf_cons, List.append_assoc]
        rfl
      rw [hLines, targetsPieces, List.flatMap_cons, List.append_assoc, List.append_assoc,
        Script.layout_append, List.append_assoc, ih]
      rfl

/-- The targets of a random block are well laid when their names can be quoted and their weights
printed. -/
theorem wellLaid_targetsPieces (hPad : IsPad pad) {targets : List RandomTarget}
    (hTargets : ∀ target ∈ targets, Quotable target.state)
    (hWeights : ∀ target ∈ targets, ∃ weight : Int, target.weight = .int weight ∧
      Integer.fits weight = true ∧ 0 ≤ weight) (rest : List Char) : WellLaid rest (targetsPieces pad targets) := by
  refine Script.wellLaid_append.2 ⟨?_,
    wellLaid_mark mark_rbrace_wellFormed (by decide) (by decide) (wellLaid_lineEnd rest)⟩
  generalize layout [mark .rbrace "\x7d", lineEnd] ++ rest = after
  induction targets with
  | nil => trivial
  | cons target targets ih =>
      obtain ⟨weight, hWeight, _⟩ := hWeights target (by simp)
      rw [List.flatMap_cons]
      refine Script.wellLaid_append.2 ⟨?_, ih (fun other hMem => hTargets other (by simp [hMem]))
        fun other hMem => hWeights other (by simp [hMem])⟩
      have hName := nameSymbol_wellFormed (hTargets target (by simp))
      have hNumber : (⟨.number, target.weight.text⟩ : Symbol).WellFormed := by
        rw [hWeight]
        exact ⟨Integer.admits_toString weight, by simp⟩
      rw [targetPieces]
      split
      · exact ⟨hPad.gaps, hName, delimited_lineEnd _ _, lineEnd_gaps, trivial⟩
      · exact ⟨hPad.gaps, hName, delimited_space _ _, space_gaps, hNumber, delimited_lineEnd _ _,
          lineEnd_gaps, trivial⟩

/-- The tokens of targets, wherever they are placed, are read as the targets. -/
theorem targetsSpelled_place (pad : String) {targets : List RandomTarget}
    (hWeights : ∀ target ∈ targets, ∃ weight : Int, target.weight = .int weight ∧
      Integer.fits weight = true ∧ 0 ≤ weight) (position : Position) :
    TargetsSpelled (place position (targetsPieces pad targets))
      (targets.map RandomTarget.entry) := by
  induction targets generalizing position with
  | nil => exact TargetsSpelled.close rfl
  | cons target targets ih =>
      obtain ⟨weight, hWeight, hFits, hSign⟩ := hWeights target (by simp)
      have hRest := fun position => ih (fun other hMem => hWeights other (by simp [hMem])) position
      let name := (nameSymbol target.state).placedAt (position.advance pad.toList)
      have hName : name.isName = true := isName_nameSymbol _ _
      have hValue : name.value = target.state := nameSymbol_value _
      have hEntry : target.entry = (name.value, weight) := by
        rw [RandomTarget.entry, hWeight, hValue]
        rfl
      rw [List.map_cons, hEntry, targetsPieces, List.flatMap_cons, List.append_assoc,
        Script.place_append]
      rw [targetPieces]
      by_cases hOne : target.weight.sameValue 1 = true
      · have hWeightOne : weight = 1 := by
          rw [hWeight] at hOne
          exact eq_of_beq (show (weight == 1) = true from hOne)
        rw [if_pos hOne, hWeightOne]
        exact TargetsSpelled.plain hName (hRest _)
      · have hLeading : Integer.leadingD target.weight.text 1 = weight := by
          rw [hWeight]
          exact Integer.leadingD_toString weight 1
        have hRead : Integer.leadingInFault? target.weight.text = none := by
          rw [hWeight]
          exact Integer.leadingInFault?_toString_eq_none_iff.2 hFits
        rw [if_neg hOne, ← hLeading]
        exact TargetsSpelled.weighted hName rfl hRead (hLeading ▸ hSign) (hRest _)

def randomPieces (pad : String) (block : RandomBlock) : List Piece :=
  .symbol ⟨.ident, "random"⟩ :: space :: .symbol ⟨.string, block.name⟩ :: space ::
    mark .lbrace "\x7b" :: lineEnd :: targetsPieces pad block.targets

theorem layout_randomPieces (pad : String) (block : RandomBlock) (rest : List Char) :
    (block.print pad).toList ++ '\n' :: rest = layout (randomPieces pad block) ++ rest := by
  rw [RandomBlock.print, textOf_printBlock, layout_targetsPieces]
  simp [randomPieces, inQuotes, Piece.source, Symbol.source, space, mark, lineEnd]

/-- A readable random block is laid out as the tokens of its header, its targets and its brace. -/
theorem RandomBlock.Readable.wellLaid {block : RandomBlock} (hBlock : block.Readable)
    (hPad : IsPad pad) (rest : List Char) : WellLaid rest (randomPieces pad block) := by
  have hTargets := wellLaid_targetsPieces hPad hBlock.targets hBlock.weights rest
  exact ⟨⟨by decide, by decide⟩, delimited_space _ _, space_gaps, ⟨hBlock.name, by simp⟩,
    Kind.endsBefore_of_ne (by simp) (by simp) _, space_gaps,
    wellLaid_mark mark_lbrace_wellFormed (by decide) (by decide) ⟨lineEnd_gaps, hTargets⟩⟩

/-- The tokens of a random block, wherever they are placed, are read as its event. -/
theorem RandomBlock.Readable.step {block : RandomBlock} (hBlock : block.Readable)
    (position : Position) (tokens : List Token) :
    ∃ opener rest, place position (randomPieces pad block) ++ tokens = opener :: rest ∧
      Script.step .top opener rest =
        .event (.random opener block.name (block.targets.map RandomTarget.entry)) .top tokens := by
  have hSpelled := targetsSpelled_place pad hBlock.weights
  exact ⟨(⟨.ident, "random"⟩ : Symbol).placedAt position, _, rfl,
    Script.step_random (isKeyword_placedAt (by decide) _) rfl rfl (hSpelled _)⟩

/-- A random block is made again from the entries of its targets. -/
theorem RandomBlock.Readable.ofTargets_entry {block : RandomBlock} (hBlock : block.Readable) :
    RandomBlock.ofTargets block.name (block.targets.map RandomTarget.entry) = block := by
  have hTargets : (block.targets.map RandomTarget.entry).map
      (fun entry => (⟨entry.1, .int entry.2⟩ : RandomTarget)) = block.targets := by
    rw [List.map_map]
    refine (List.map_congr_left fun target hMem => ?_).trans (List.map_id block.targets)
    obtain ⟨weight, hWeight, _⟩ := hBlock.weights target hMem
    obtain ⟨state, found⟩ := target
    have hFound : found = .int weight := hWeight
    rw [hFound]
    rfl
  exact congrArg (RandomBlock.mk block.name) hTargets

/-- The text of a random block is read as the block. -/
theorem RandomBlock.Readable.leads {block : RandomBlock} (hBlock : block.Readable)
    (hPad : IsPad pad) (hFresh : block.name ∉ quest.random.map RandomBlock.name)
    (rest : List Char) :
    Leads schema (.top quest) ((block.print pad).toList ++ '\n' :: rest)
      (.top { quest with random := quest.random ++ [block] }) rest := by
  rw [layout_randomPieces]
  refine Leads.of_layout (hBlock.wellLaid hPad rest) ?_
  intro position tokens _
  obtain ⟨opener, after, hPlace, hStep⟩ := hBlock.step position tokens
  have takes : Takes schema quest none
      (.random opener block.name (block.targets.map RandomTarget.entry))
      { quest with
        random := quest.random ++
          [.ofTargets block.name (block.targets.map RandomTarget.entry)] } none :=
    Takes.random hFresh
  rw [hBlock.ofTargets_entry] at takes
  rw [hPlace]
  exact Stage.resume_event hStep takes

/-- A random block whose name the quest has already is not read. -/
theorem RandomBlock.Readable.fails_repeated {block : RandomBlock} (hBlock : block.Readable)
    (hPad : IsPad pad) (hRepeated : block.name ∈ quest.random.map RandomBlock.name)
    (rest : List Char) :
    Fails schema (.top quest) ((block.print pad).toList ++ '\n' :: rest) := by
  rw [layout_randomPieces]
  refine Fails.of_layout (hBlock.wellLaid hPad rest) ?_
  intro position tokens _
  obtain ⟨opener, after, hPlace, hStep⟩ := hBlock.step position tokens
  rw [hPlace]
  refine Stage.resume_refused hStep ?_
  intro quest' current' takes
  cases takes with
  | random hFresh => exact hFresh hRepeated

end QuestScript

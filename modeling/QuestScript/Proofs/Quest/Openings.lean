import QuestScript.Proofs.Quest.Accounting
import QuestScript.Proofs.Quest.Surviving
import QuestScript.Proofs.Script.Lines
import Mathlib.Data.List.Perm.Basic
/-!
The calls that a script opens. Every opening parenthesis of a script belongs to one call, whose
arguments are behind it, and every line of a call that is written opens one. So a script that is
written with as many calls as are read from it is read call by call.
-/

namespace QuestScript

open Script (Arg ArgumentListSpelled Call Event EventSpelled Kind Phrase Piece Position ScriptSpelled
  Token WellLaid countKind layout tokensFrom)

/-! ### What is read -/

def Script.behindParens : List Token → List (List Token)
  | [] => []
  | token :: tokens =>
    if token.kind = .lparen then tokens :: behindParens tokens else behindParens tokens

open Script (behindParens)

/-- Tokens that begin with the arguments of a call. -/
def Script.Call.ReadFrom (call : Call) (tokens : List Token) : Prop :=
  ∃ args more, tokens = args ++ more ∧ ArgumentListSpelled args call.args

/-- Tokens without a parenthesis open no call. -/
theorem behindParens_append {front : List Token} (hFront : countKind .lparen front = 0)
    (back : List Token) : behindParens (front ++ back) = behindParens back := by
  induction front with
  | nil => rfl
  | cons token front ih =>
      rw [Script.countKind_cons] at hFront
      have hKind : token.kind ≠ .lparen := by
        intro hEq
        simp [hEq] at hFront
      rw [List.cons_append, behindParens, if_neg hKind]
      exact ih (by omega)

/-- The calls behind a front text are among those of the whole. -/
theorem behindParens_sublist (front back : List Token) :
    (behindParens back).Sublist (behindParens (front ++ back)) := by
  induction front with
  | nil => exact List.Sublist.refl _
  | cons token front ih =>
      rw [List.cons_append, behindParens]
      split
      · exact ih.cons _
      · exact ih

/-- Behind the parenthesis of a call are its arguments, and no other event opens one. -/
theorem Script.EventSpelled.readFrom {scope scope' : Script.Scope} {event : Event}
    {spelling : List Token} (spelled : EventSpelled scope event spelling scope')
    {calls : List Call} {tokens : List Token}
    (hCalls : List.Forall₂ Call.ReadFrom calls (behindParens tokens)) :
    List.Forall₂ Call.ReadFrom (event.call?.toList ++ calls)
      (behindParens (spelling ++ tokens)) := by
  have hCount : countKind .lparen spelling = event.marks .lparen := spelled.countKind_eq rfl
  have hPlain (hMarks : event.marks .lparen = 0) :
      behindParens (spelling ++ tokens) = behindParens tokens :=
    behindParens_append (hCount.trans hMarks) tokens
  cases spelled with
  | attr hKey hScope spelledValue spelledEnd => rwa [hPlain rfl]
  | openMain hOpener hBrace => rwa [hPlain rfl]
  | openState hOpener hName hBrace => rwa [hPlain rfl]
  | desc hKeyword hText spelledEnd => rwa [hPlain rfl]
  | close hBrace => rwa [hPlain rfl]
  | random hOpener hName hBrace spelled => rwa [hPlain rfl]
  | @call block opener name paren front args goto semicolon call hFront hName hCall hParen
      spelledArgs spelledGoto spelledEnd =>
      have hBefore : countKind .lparen (front ++ [name]) = 0 := by
        rw [Script.countKind_append, Script.countKind_eq_zero rfl hFront.isStructural,
          Script.countKind_cons_of_plain _ rfl (by rw [hName]; rfl)]
        rfl
      have hAfter : countKind .lparen (args ++ goto ++ semicolon) = 0 := by
        rw [Script.countKind_append, Script.countKind_append,
          Script.countKind_eq_zero rfl spelledArgs.isStructural,
          Script.countKind_eq_zero rfl spelledGoto.isStructural,
          Script.countKind_eq_zero rfl spelledEnd.isStructural]
      have hTokens : front ++ name :: paren :: args ++ goto ++ semicolon ++ tokens =
          (front ++ [name]) ++ paren :: (args ++ goto ++ semicolon ++ tokens) := by simp
      rw [hTokens, behindParens_append hBefore, behindParens, if_pos hParen,
        behindParens_append hAfter]
      refine List.Forall₂.cons ⟨args, goto ++ semicolon ++ tokens, ?_, spelledArgs⟩ hCalls
      simp

/-- Behind the parentheses of a script are the arguments of its calls, in order. -/
theorem Script.ScriptSpelled.readFrom {scope : Script.Scope} {events : List Event}
    {tokens : List Token} (spelled : ScriptSpelled scope events tokens) :
    List.Forall₂ Call.ReadFrom (events.filterMap Event.call?) (behindParens tokens) := by
  induction spelled with
  | finished hFinal =>
      rw [behindParens, if_neg (by rw [hFinal]; decide)]
      exact List.Forall₂.nil
  | @skip _ token _ _ hKind rest ih =>
      rw [behindParens, if_neg (by rw [hKind]; decide)]
      exact ih
  | @event _ _ event events _ _ first rest ih =>
      have hCalls := first.readFrom ih
      cases h : event.call? <;> simpa [h] using hCalls

def Script.Call.toStatement (schema : Schema) (call : Call) : Statement :=
  match call.goto with
  | none => .action (Draft.actionOf schema call)
  | some target => .rule (Draft.ruleOf schema call target)

def CallBlock.toStatements (schema : Schema) (block : CallBlock) : List Statement :=
  (block.actions schema).map .action ++ (block.rules schema).map .rule

/-- A block is written with its calls, the actions before the rules. -/
theorem CallBlock.toStatements_perm (schema : Schema) (block : CallBlock) :
    (block.toStatements schema).Perm (block.calls.map (Call.toStatement schema)) := by
  obtain ⟨section', calls⟩ := block
  induction calls with
  | nil => exact List.Perm.refl _
  | cons call calls ih =>
      simp only [toStatements, actions, rules] at ih ⊢
      cases hGoto : call.goto with
      | none => simpa [hGoto, Call.toStatement] using ih
      | some target =>
          have hMiddle := List.perm_middle.trans (List.Perm.cons (Statement.rule
            (Draft.ruleOf schema call target)) ih)
          simpa [hGoto, Call.toStatement] using hMiddle

def Quest.toStatements (quest : Quest) : List Statement := quest.blocks.flatMap State.toStatements

/-- Statements of the states in order are those of the blocks in order, when each state has those
of its block. -/
theorem flatMap_toStatements {schema : Schema} {states : List State} {blocks : List CallBlock}
    (hStatements : states.map State.statements = blocks.map (CallBlock.statements schema)) :
    states.flatMap State.toStatements = blocks.flatMap (CallBlock.toStatements schema) := by
  have hCalls := congrArg
    (List.flatMap fun statements : String × List Action × List Rule =>
      statements.2.1.map Statement.action ++ statements.2.2.map Statement.rule) hStatements
  rw [List.flatMap_map, List.flatMap_map] at hCalls
  exact hCalls

/-- The calls of a quest that is read are the calls of its script, but for their order. -/
theorem Run.toStatements_perm {schema : Schema} {id : Number} {quest : Quest}
    {current : Option OpenBlock} {events : List Event} {tokens : List Token}
    (run : Run schema (Quest.blank id) none events quest current)
    (spelled : ScriptSpelled .top events tokens) :
    quest.toStatements.Perm ((events.filterMap Event.call?).map (Call.toStatement schema)) := by
  have gains := run.gains
  have hCalls : (callBlocks none events).flatMap CallBlock.calls = events.filterMap Event.call? :=
    spelled.flatMap_calls trivial
  have hQuest : quest.toStatements =
      ((callBlocks none events).filter CallBlock.isMain ++
        (callBlocks none events).filter fun block => !block.isMain).flatMap
          (CallBlock.toStatements schema) := by
    rw [Quest.toStatements, Quest.blocks, List.flatMap_append, List.flatMap_append,
      flatMap_toStatements gains.main, flatMap_toStatements gains.states]
  rw [hQuest, ← hCalls, List.map_flatMap]
  exact (List.filter_append_perm CallBlock.isMain _).flatMap
    fun block _ => block.toStatements_perm schema

/-! ### What is written -/

theorem IsPad.oneLine {pad : String} (hPad : IsPad pad) : OneLine pad :=
  fun hMem => absurd (hPad '\n' hMem) (by decide)

theorem State.Sourced.types {schema : Schema} {state : State} (hState : state.Sourced schema) :
    ∀ statement ∈ state.toStatements, IsIdentifier statement.type := by
  intro statement hMem
  rcases List.mem_append.1 hMem with hMem | hMem
  · obtain ⟨action, hAction, rfl⟩ := List.mem_map.1 hMem
    obtain ⟨call, hSound, _, rfl⟩ := hState.actions action hAction
    exact hSound.1
  · obtain ⟨rule, hRule, rfl⟩ := List.mem_map.1 hMem
    obtain ⟨call, goto, hSound, _, _, rfl⟩ := hState.rules rule hRule
    exact hSound.1

theorem State.Canonical.lines {schema : Schema} {state : State} (hState : state.Canonical schema) :
    ∀ statement ∈ state.toStatements, OneLine (statement.print schema) := by
  have hTexts := hState.oneLine
  simp only [State.strings, List.mem_cons, List.mem_append, List.mem_flatMap] at hTexts
  intro statement hMem
  rcases List.mem_append.1 hMem with hMem | hMem
  · obtain ⟨action, hAction, rfl⟩ := List.mem_map.1 hMem
    rw [Statement.print, ← (hState.actions action hAction).rawText]
    exact hTexts _ (Or.inr (Or.inr (Or.inl ⟨action, hAction, by simp [Action.strings]⟩)))
  · obtain ⟨rule, hRule, rfl⟩ := List.mem_map.1 hMem
    rw [Statement.print, ← (hState.rules rule hRule).rawText]
    exact hTexts _ (Or.inr (Or.inr (Or.inr ⟨rule, hRule, by simp [Rule.strings]⟩)))

namespace Statement

def params : Statement → List Param
  | .action made => made.params
  | .rule made => made.params

def slots (schema : Schema) : Statement → List Schema.Slot
  | .action made => schema.actionSlots made.type
  | .rule made => schema.ruleSlots made.type

def argTexts (schema : Schema) (statement : Statement) : List String :=
  Param.printList statement.params (statement.slots schema)

end Statement

/-- The parameters of a call are its arguments, each read for a slot of the schema. -/
theorem Script.Call.params_toStatement (schema : Schema) (call : Call) :
    ∃ slots, (call.toStatement schema).params = Param.ofArgs call.args slots := by
  unfold Call.toStatement
  split <;> exact ⟨_, rfl⟩

/-- The text of a call behind its opening parenthesis, from the texts of its arguments. -/
def argumentText (texts : List String) : List Char := (", ".intercalate texts).toList ++ [')']

/-- Tokens that are read where the arguments of a call are written. -/
def Statement.WrittenAt (schema : Schema) (statement : Statement) (tokens : List Token) : Prop :=
  ∃ position rest, tokensFrom position (argumentText (statement.argTexts schema) ++ rest) = .ok tokens

/-- The text of a call: its name, its arguments between parentheses, and an ending. -/
theorem Statement.print_arguments (schema : Schema) (statement : Statement) :
    ∃ ending, (statement.print schema).toList = statement.type.toList ++
      '(' :: (argumentText (statement.argTexts schema) ++ ending) := by
  cases statement with
  | action made =>
      refine ⟨(if schema.actionHasSemicolon made.type then ";" else "").toList, ?_⟩
      simp only [Statement.print, Action.print, printCall, argumentText, String.toList_append,
        List.append_assoc]
      rfl
  | rule made =>
      refine ⟨(" goto " ++ printName made.goto).toList, ?_⟩
      simp only [Statement.print, Rule.print, printCall, argumentText, String.toList_append,
        List.append_assoc]
      rfl

/-- In the tokens of a text each call of a list opens a parenthesis, in order. -/
def Opens (schema : Schema) (text : List Char) (statements : List Statement) : Prop :=
  ∀ position tokens, tokensFrom position text = .ok tokens →
    ∃ opened, opened.Sublist (behindParens tokens) ∧
      List.Forall₂ (Statement.WrittenAt schema) statements opened

namespace Opens

variable {schema : Schema} {pad : String} {rest : List Char} {statements : List Statement}

theorem nothing (schema : Schema) (text : List Char) : Opens schema text [] :=
  fun _ _ _ => ⟨[], List.nil_sublist _, List.Forall₂.nil⟩

/-- A line in front opens no fewer calls. What it opens itself need not be known. -/
theorem line {line : List Char} (hLine : '\n' ∉ line) (opens : Opens schema rest statements) :
    Opens schema (line ++ '\n' :: rest) statements := by
  intro position tokens hTokens
  obtain ⟨front, back, place, rfl, hBack⟩ := (Script.tokensFrom_lexed hTokens).line hLine
  obtain ⟨opened, hOpened, hWritten⟩ := opens place back hBack
  exact ⟨opened, hOpened.trans (behindParens_sublist front back), hWritten⟩

theorem lines {lines : List String} (hLines : ∀ line ∈ lines, OneLine line)
    (opens : Opens schema rest statements) : Opens schema (textOf lines ++ rest) statements := by
  induction lines with
  | nil => exact opens
  | cons first lines ih =>
      obtain ⟨hFirst, hMore⟩ := List.forall_mem_cons.1 hLines
      rw [textOf_cons, List.append_assoc, List.cons_append]
      exact line hFirst (ih hMore)

/-- The line of a call opens a parenthesis with the arguments of the call behind it. -/
theorem call {statement : Statement} (hPad : IsPad pad) (hType : IsIdentifier statement.type)
    (hLine : OneLine (statement.print schema)) (opens : Opens schema rest statements) :
    Opens schema ((pad ++ statement.print schema).toList ++ '\n' :: rest)
      (statement :: statements) := by
  intro position tokens hTokens
  obtain ⟨ending, hText⟩ := statement.print_arguments schema
  let args := argumentText (statement.argTexts schema)
  obtain ⟨tail, hTail⟩ : ∃ tail, tail = args ++ ending := ⟨_, rfl⟩
  let pieces : List Piece := [.gap pad.toList, .symbol ⟨.ident, statement.type⟩, mark .lparen "("]
  have hLaid : WellLaid (tail ++ '\n' :: rest) pieces :=
    ⟨hPad.gaps, isIdentifier_wellFormed hType, delimited_paren _ _,
      wellLaid_mark ⟨by decide, by decide⟩ (by decide) (by decide) trivial⟩
  have hLayout : (pad ++ statement.print schema).toList ++ '\n' :: rest =
      layout pieces ++ (tail ++ '\n' :: rest) := by
    rw [String.toList_append, hText, ← hTail, List.append_assoc, List.append_assoc]
    simp only [pieces, Script.layout_cons, List.append_assoc]
    rfl
  have hEnding : '\n' ∉ tail := by
    intro hMem
    rw [OneLine, hText, ← hTail] at hLine
    exact hLine (List.mem_append_right _ (List.mem_cons_of_mem _ hMem))
  rw [hLayout] at hTokens
  obtain ⟨behind, rfl, hRest⟩ := Script.exists_tokens_layout hLaid hTokens
  obtain ⟨front, back, place, hBehind, hBack⟩ := (Script.tokensFrom_lexed hRest).line hEnding
  obtain ⟨opened, hOpened, hWritten⟩ := opens place back hBack
  have hMore : opened.Sublist (behindParens behind) := by
    rw [hBehind]
    exact hOpened.trans (behindParens_sublist front back)
  refine ⟨behind :: opened, hMore.cons_cons behind, List.Forall₂.cons ?_ hWritten⟩
  rw [hTail, List.append_assoc] at hRest
  exact ⟨_, _, hRest⟩

/-- Lines with one call each open these calls, in their order. -/
theorem calls {made : List Statement} (hPad : IsPad pad)
    (hTypes : ∀ statement ∈ made, IsIdentifier statement.type)
    (hLines : ∀ statement ∈ made, OneLine (statement.print schema))
    (opens : Opens schema rest statements) :
    Opens schema (textOf (made.map fun statement => pad ++ statement.print schema) ++ rest)
      (made ++ statements) := by
  induction made with
  | nil => exact opens
  | cons statement made ih =>
      obtain ⟨hType, hTypes⟩ := List.forall_mem_cons.1 hTypes
      obtain ⟨hLine, hLines⟩ := List.forall_mem_cons.1 hLines
      rw [List.map_cons, textOf_cons, List.append_assoc, List.cons_append, List.cons_append]
      exact call hPad hType hLine (ih hTypes hLines)

/-- A block opens a parenthesis for each of its calls. -/
theorem block {header : String} (hHeader : OneLine header) (hPad : IsPad pad) {state : State}
    (hSourced : state.Sourced schema) (hCanonical : state.Canonical schema)
    (opens : Opens schema rest statements) :
    Opens schema ((printBlock header (state.bodyLines schema pad)).toList ++ '\n' :: rest)
      (state.toStatements ++ statements) := by
  have hBrace : OneLine (header ++ " \x7b") := OneLine.append_iff.2 ⟨hHeader, by decide⟩
  have hDesc : ∀ line ∈ state.descLines pad, OneLine line := by
    have hText : OneLine state.description := hCanonical.oneLine _ (by simp [State.strings])
    intro line hMem
    rw [State.descLines] at hMem
    split at hMem
    · cases hMem
    · rw [List.mem_singleton.1 hMem, OneLine.append_iff, OneLine.append_iff]
      exact ⟨⟨hPad.oneLine, by decide⟩, oneLine_inQuotes hText⟩
  rw [textOf_printBlock, bodyLines_eq, textOf_append, List.append_assoc]
  refine line hBrace (lines hDesc (calls hPad hSourced.types hCanonical.lines ?_))
  exact line (by decide) opens

/-- Sections of a script open the calls of each, in their order. -/
theorem sections {α : Type} {print : α → String} {made : α → List Statement} {items : List α}
    (hItems : ∀ item ∈ items, ∀ rest statements, Opens schema rest statements →
      Opens schema ((print item).toList ++ '\n' :: rest) (made item ++ statements))
    (opens : Opens schema rest statements) :
    Opens schema (sectionText (items.map print) ++ rest) (items.flatMap made ++ statements) := by
  induction items with
  | nil => exact opens
  | cons item items ih =>
      obtain ⟨hItem, hMore⟩ := List.forall_mem_cons.1 hItems
      rw [List.map_cons, sectionText_cons, List.flatMap_cons]
      simp only [List.append_assoc, List.cons_append]
      have hBlank : '\n' ∉ ([] : List Char) := List.not_mem_nil
      exact line hBlank (hItem _ _ (ih hMore))

end Opens

/-! ### The lines of a quest -/

theorem OneLine.text_int {number : Number}
    (hNumber : ∃ n : Int, number = .int n ∧ Integer.fits n = true) : OneLine number.text := by
  obtain ⟨n, rfl, _⟩ := hNumber
  exact oneLine_toString n

/-- The lines before the blocks of a quest that was read from a script are each one line, since no
text of it has a line feed. -/
theorem Quest.Sourced.attributeLines {schema : Schema} {quest : Quest}
    (hQuest : quest.Sourced schema) (hCanonical : quest.Canonical schema) :
    ∀ line ∈ quest.attributeLines, OneLine line := by
  obtain ⟨hName, hExtra, _, _⟩ := quest.oneLine_iff.1 hCanonical.oneLine
  intro line hMem
  simp only [attributeLines_eq, List.mem_append, List.mem_map, List.mem_cons, List.not_mem_nil,
    or_false] at hMem
  rcases hMem with (((rfl | rfl) | ⟨entry, hEntry, rfl⟩) | ⟨flag, _, rfl⟩) | ⟨entry, hEntry, rfl⟩
  · exact OneLine.append_iff.2 ⟨by decide, oneLine_inQuotes hName⟩
  · exact OneLine.append_iff.2 ⟨by decide, OneLine.text_int hQuest.version⟩
  · obtain ⟨gate, number⟩ := entry
    have hKeyword : OneLine gate.keyword := by cases gate <;> decide
    have hNumber := hQuest.gates gate number (Gates.get_of_mem_set? hEntry)
    rw [printGate, OneLine.append_iff, OneLine.append_iff]
    exact ⟨⟨hKeyword, by decide⟩, OneLine.text_int hNumber⟩
  · cases flag <;> decide
  · have hTexts := hExtra
    simp only [List.mem_flatMap] at hTexts
    obtain ⟨key, value⟩ := entry
    have hKey : OneLine key := hTexts key ⟨_, hEntry, by simp [extraStrings]⟩
    cases value with
    | none => exact hKey
    | some param =>
        have hParam : OneLine param.print := by
          refine Param.oneLine_print fun text hText => hTexts text ⟨_, hEntry, ?_⟩
          simp only [extraStrings, List.mem_cons, List.mem_flatMap]
          exact Or.inr ⟨param, by simp, hText⟩
        rw [printExtra, OneLine.append_iff, OneLine.append_iff]
        exact ⟨⟨hKey, by decide⟩, hParam⟩

/-- A random block is printed on plain lines and opens no call of its own. -/
theorem RandomBlock.Canonical.printed {block : RandomBlock} (hBlock : block.Canonical)
    (hFits : ∀ target ∈ block.targets, ∃ weight : Int, target.weight = .int weight ∧
      Integer.fits weight = true)
    {pad : String} (hPad : IsPad pad) {schema : Schema} {rest : List Char}
    {statements : List Statement} (opens : Opens schema rest statements) :
    Opens schema ((block.print pad).toList ++ '\n' :: rest) statements := by
  have hName : OneLine block.name := hBlock.oneLine _ (by simp [RandomBlock.strings])
  have hTargets : ∀ line ∈ block.targets.map (fun target => pad ++ target.print),
      OneLine line := by
    intro line hMem
    obtain ⟨target, hTarget, rfl⟩ := List.mem_map.1 hMem
    have hState : OneLine target.state := by
      refine hBlock.oneLine _ (List.mem_cons_of_mem _ (List.mem_map.2 ⟨target, hTarget, rfl⟩))
    have hText : OneLine target.weight.text := OneLine.text_int (hFits target hTarget)
    rw [RandomTarget.print, OneLine.append_iff, OneLine.append_iff]
    refine ⟨hPad.oneLine, oneLine_printName hState, ?_⟩
    split
    · decide
    · exact OneLine.append_iff.2 ⟨by decide, hText⟩
  have hHeader : OneLine ("random " ++ inQuotes block.name ++ " \x7b") := by
    rw [OneLine.append_iff, OneLine.append_iff]
    exact ⟨⟨by decide, oneLine_inQuotes hName⟩, by decide⟩
  rw [RandomBlock.print, textOf_printBlock]
  exact Opens.line hHeader (Opens.lines hTargets (Opens.line (by decide) opens))

/-- The script of a quest that was read opens a parenthesis for each call of the quest. -/
theorem Quest.Sourced.opens {schema : Schema} {quest : Quest} (hQuest : quest.Sourced schema)
    (hCanonical : quest.Canonical schema) {pad : String} (hPad : IsPad pad) :
    Opens schema (quest.print schema pad).toList quest.toStatements := by
  have hName : ∀ state ∈ quest.states, OneLine state.name := by
    intro state hMem
    have hBlock := hCanonical.blocks state (List.mem_append_right _ hMem)
    exact hBlock.oneLine _ (by simp [State.strings])
  have hMain : ∀ state ∈ quest.main.toList, ∀ rest statements, Opens schema rest statements →
      Opens schema ((state.printMain schema pad).toList ++ '\n' :: rest)
        (state.toStatements ++ statements) := by
    intro state hMem rest statements opens
    have hBlock : state ∈ quest.blocks := List.mem_append_left _ hMem
    exact opens.block (by decide) hPad (hQuest.blocks state hBlock) (hCanonical.blocks state hBlock)
  have hStates : ∀ state ∈ quest.states, ∀ rest statements, Opens schema rest statements →
      Opens schema ((state.print schema pad).toList ++ '\n' :: rest)
        (state.toStatements ++ statements) := by
    intro state hMem rest statements opens
    have hBlock : state ∈ quest.blocks := List.mem_append_right _ hMem
    have hHeader : OneLine ("State " ++ inQuotes state.name) :=
      OneLine.append_iff.2 ⟨by decide, oneLine_inQuotes (hName state hMem)⟩
    exact opens.block hHeader hPad (hQuest.blocks state hBlock) (hCanonical.blocks state hBlock)
  have hRandom : ∀ block ∈ quest.random, ∀ rest statements, Opens schema rest statements →
      Opens schema ((block.print pad).toList ++ '\n' :: rest) ([] ++ statements) :=
    fun block hMem rest statements opens => (hCanonical.random block hMem).printed
      (fun target hTarget => ((hQuest.random block hMem).2 target hTarget).2) hPad opens
  have hBlocks := (((Opens.nothing schema []).sections hRandom).sections hStates).sections hMain
  have hNothing : quest.random.flatMap (fun _ => ([] : List Statement)) = [] := by simp
  rw [hNothing, List.append_nil, List.append_nil, List.append_nil, ← List.flatMap_append] at hBlocks
  rw [Quest.toList_print, Quest.blockSections, sectionText_append, sectionText_append]
  exact Opens.lines (hQuest.attributeLines hCanonical) hBlocks

end QuestScript

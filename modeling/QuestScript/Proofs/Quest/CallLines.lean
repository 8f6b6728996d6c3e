import QuestScript.Proofs.Quest.Normal
import QuestScript.Proofs.Quest.Resuming
/-!
The lines of calls, and how they are read again. A line that ends without a semicolon runs into the
next one where that begins with the word goto; everywhere else the line of a call is read as the call
and nothing more.
-/

namespace QuestScript

open Script (Arg ArgumentListSpelled ArgumentsSpelled Delimited Kind Phrase Piece Position
  SemicolonSpelled Symbol Token WellLaid layout nextToken place tokensFrom)

/-! ### Marks and gaps -/

def mark (kind : Kind) (text : String) : Piece := .symbol ⟨kind, text⟩

def space : Piece := .gap [' ']

def lineEnd : Piece := .gap ['\n']

/-- Blanks in front of a line. -/
def IsPad (pad : String) : Prop := ∀ c ∈ pad.toList, c = ' '

theorem IsPad.gaps {pad : String} (hPad : IsPad pad) :
    ∀ c ∈ pad.toList, Script.isGapChar c = true := by
  intro c hMem
  rw [hPad c hMem]
  decide

theorem space_gaps : ∀ c ∈ [' '], Script.isGapChar c = true :=
  List.forall_mem_singleton.2 (by decide)

theorem lineEnd_gaps : ∀ c ∈ ['\n'], Script.isGapChar c = true :=
  List.forall_mem_singleton.2 (by decide)

theorem Meets.space {rest : List Char} {property : Symbol → Prop} (meets : Meets rest property) :
    Meets (' ' :: rest) property :=
  Meets.gaps space_gaps meets

theorem Meets.lineEnd {rest : List Char} {property : Symbol → Prop} (meets : Meets rest property) :
    Meets ('\n' :: rest) property :=
  Meets.gaps lineEnd_gaps meets

theorem delimited_space (rest : List Char) : Delimited (' ' :: rest) :=
  Script.delimited_cons rest (by decide) (by decide)

theorem delimited_lineEnd (rest : List Char) : Delimited ('\n' :: rest) :=
  Script.delimited_cons rest (by decide) (by decide)

theorem delimited_paren (rest : List Char) : Delimited ('(' :: rest) :=
  Script.delimited_cons rest (by decide) (by decide)

theorem delimited_close (rest : List Char) : Delimited (')' :: rest) :=
  Script.delimited_cons rest (by decide) (by decide)

theorem delimited_comma (rest : List Char) : Delimited (',' :: rest) :=
  Script.delimited_cons rest (by decide) (by decide)

/-- Only words and numbers can run into the text behind them. Every other token ends by itself. -/
theorem Script.Kind.endsBefore_of_ne {kind : Kind} (hIdent : kind ≠ .ident)
    (hNumber : kind ≠ .number) (rest : List Char) : kind.endsBefore rest = true := by
  cases hRest : rest.head? <;> cases kind <;> simp_all [Kind.endsBefore, Kind.extendsTo]

theorem wellLaid_mark {kind : Kind} {text : String} (hForm : (⟨kind, text⟩ : Symbol).WellFormed)
    (hIdent : kind ≠ .ident) (hNumber : kind ≠ .number) {pieces : List Piece} {rest : List Char}
    (hLaid : WellLaid rest pieces) : WellLaid rest (mark kind text :: pieces) :=
  ⟨hForm, Kind.endsBefore_of_ne hIdent hNumber _, hLaid⟩

theorem wellLaid_lineEnd (rest : List Char) : WellLaid rest [lineEnd] := ⟨lineEnd_gaps, trivial⟩

theorem wellLaid_semicolon (rest : List Char) : WellLaid rest [mark .semi ";", lineEnd] :=
  wellLaid_mark ⟨by decide, by decide⟩ (by decide) (by decide) (wellLaid_lineEnd rest)

def NoSemicolon (symbol : Symbol) : Prop := symbol.kind ≠ .semi

def NoGoto (symbol : Symbol) : Prop :=
  ¬(symbol.kind = .ident ∧ Text.lowered symbol.value = "goto")

theorem isKeyword_goto_eq_false {token : Token} (hToken : NoGoto token.symbol) :
    token.isKeyword "goto" = false := by
  simpa [Token.isKeyword, NoGoto, Token.symbol] using hToken

/-- Keywords are known by their spelling in small letters, whatever their position. -/
theorem isKeyword_placedAt {value word : String} (hWord : Text.lowered value = word)
    (position : Position) : ((⟨.ident, value⟩ : Symbol).placedAt position).isKeyword word = true := by
  simp [Token.isKeyword, Symbol.placedAt, hWord]

/-! ### The pieces of a call -/

def commaPieces : List Phrase → List Piece
  | [] => []
  | [phrase] => phrase.pieces
  | phrase :: next :: phrases =>
    phrase.pieces ++ mark .comma "," :: space :: commaPieces (next :: phrases)

def argumentPieces (phrases : List Phrase) : List Piece :=
  commaPieces phrases ++ [mark .rparen ")"]

theorem layout_pieces (phrase : Phrase) : layout phrase.pieces = phrase.text.toList := by
  rw [Phrase.text, String.toList_ofList]

/-- Arguments are laid out with a comma and a blank between two of them. -/
theorem layout_commaPieces (phrases : List Phrase) :
    layout (commaPieces phrases) = (", ".intercalate (phrases.map Phrase.text)).toList := by
  fun_induction commaPieces phrases with
  | case1 => simp
  | case2 phrase => simp [layout_pieces]
  | case3 phrase next phrases ih =>
      rw [List.map_cons, String.intercalate_cons_of_ne_nil (by simp), String.toList_append,
        String.toList_append, ← ih, Script.layout_append, layout_pieces, List.append_assoc]
      rfl

theorem wellLaid_commaPieces {phrases : List Phrase} (hForms : ∀ phrase ∈ phrases, phrase.WellFormed)
    {rest : List Char} (hRest : Delimited rest) : WellLaid rest (commaPieces phrases) := by
  fun_induction commaPieces phrases with
  | case1 => trivial
  | case2 phrase => exact (hForms phrase (by simp)).wellLaid hRest
  | case3 phrase next phrases ih =>
      have hRest : WellLaid rest (space :: commaPieces (next :: phrases)) :=
        ⟨space_gaps, ih fun other hMem => hForms other (by simp [hMem])⟩
      refine Script.wellLaid_append.2 ⟨(hForms phrase (by simp)).wellLaid (delimited_comma _), ?_⟩
      exact wellLaid_mark ⟨by decide, by decide⟩ (by decide) (by decide) hRest

/-- An argument list is well laid before any text, since its parenthesis ends it. -/
theorem wellLaid_argumentPieces {phrases : List Phrase}
    (hForms : ∀ phrase ∈ phrases, phrase.WellFormed) (rest : List Char) :
    WellLaid rest (argumentPieces phrases) :=
  Script.wellLaid_append.2
    ⟨wellLaid_commaPieces hForms (delimited_close _),
      wellLaid_mark ⟨by decide, by decide⟩ (by decide) (by decide) trivial⟩

/-- The tokens of arguments, wherever they are placed, are read as the arguments of the phrases. -/
theorem argumentsSpelled_place {phrase : Phrase} {phrases : List Phrase}
    (hForms : ∀ other ∈ phrase :: phrases, other.WellFormed) (position : Position) :
    ArgumentsSpelled (place position (argumentPieces (phrase :: phrases)))
      ((phrase :: phrases).map Phrase.arg) := by
  induction phrases generalizing phrase position with
  | nil =>
      obtain ⟨first, more, hPlace, hFirst, hMore, hArg⟩ :=
        (hForms phrase (by simp)).place position
      rw [argumentPieces, commaPieces, Script.place_append, hPlace, List.map_singleton, ← hArg]
      exact ArgumentsSpelled.last hFirst hMore rfl
  | cons next phrases ih =>
      obtain ⟨first, more, hPlace, hFirst, hMore, hArg⟩ :=
        (hForms phrase (by simp)).place position
      have hNext : ∀ other ∈ next :: phrases, other.WellFormed :=
        fun other hMem => hForms other (List.mem_cons_of_mem _ hMem)
      rw [argumentPieces, commaPieces, List.append_assoc, Script.place_append, hPlace,
        List.map_cons, ← hArg]
      exact ArgumentsSpelled.next hFirst hMore rfl (ih hNext _)

/-- The tokens of printed arguments are read as these arguments. -/
theorem argumentListSpelled_place {phrases : List Phrase}
    (hForms : ∀ phrase ∈ phrases, phrase.WellFormed) (position : Position) :
    ArgumentListSpelled (place position (argumentPieces phrases)) (phrases.map Phrase.arg) := by
  cases phrases with
  | nil => exact ArgumentListSpelled.empty rfl
  | cons phrase phrases => exact ArgumentListSpelled.args (argumentsSpelled_place hForms position)

def callPieces (name : String) (phrases : List Phrase) : List Piece :=
  .symbol ⟨.ident, name⟩ :: mark .lparen "(" :: argumentPieces phrases

/-- The pieces of a call are its text, once the printed arguments are the texts of the phrases. -/
theorem layout_callPieces {name : String} {phrases : List Phrase} {params : List Param}
    {slots : List Schema.Slot} (hTexts : phrases.map Phrase.text = Param.printList params slots) :
    layout (callPieces name phrases) = (printCall name params slots).toList := by
  simp only [callPieces, argumentPieces, Script.layout_cons, Script.layout_append,
    layout_commaPieces, hTexts, printCall, String.toList_append, List.append_assoc]
  rfl

theorem isIdentifier_wellFormed {name : String} (hName : IsIdentifier name) :
    (⟨.ident, name⟩ : Symbol).WellFormed :=
  ⟨hName, by simp⟩

/-- A call by a plain name is well laid before any text. -/
theorem wellLaid_callPieces {name : String} (hName : IsIdentifier name) {phrases : List Phrase}
    (hForms : ∀ phrase ∈ phrases, phrase.WellFormed) (rest : List Char) :
    WellLaid rest (callPieces name phrases) :=
  ⟨isIdentifier_wellFormed hName, delimited_paren _ _,
    wellLaid_mark ⟨by decide, by decide⟩ (by decide) (by decide)
      (wellLaid_argumentPieces hForms rest)⟩

/-! ### Names -/

def nameSymbol (name : String) : Symbol :=
  if isPlainName name then ⟨.ident, name⟩ else ⟨.string, name⟩

theorem source_nameSymbol (name : String) : (nameSymbol name).source = (printName name).toList := by
  unfold nameSymbol printName
  split
  · rfl
  · simp [Symbol.source, inQuotes]

theorem isIdentifier_of_isPlainName {name : String} (hName : isPlainName name = true) :
    IsIdentifier name := by
  unfold isPlainName at hName
  split at hName
  · cases hName
  · next c rest hChars =>
      rw [Bool.and_eq_true, List.all_eq_true] at hName
      rw [IsIdentifier, hChars]
      change (Script.isIdentStart c && rest.all Script.isIdentChar) = true
      rw [Script.isIdentStart_of_isPlainStart hName.1, List.all_eq_true.2 fun d hMem =>
        Script.isIdentChar_of_isPlainChar (hName.2 d hMem)]
      rfl

/-- A name that can be quoted is a token, be it a word or a text between quotes. -/
theorem nameSymbol_wellFormed {name : String} (hName : Quotable name) :
    (nameSymbol name).WellFormed := by
  unfold nameSymbol
  split
  · next hPlain => exact isIdentifier_wellFormed (isIdentifier_of_isPlainName hPlain)
  · exact ⟨hName, by simp⟩

theorem nameSymbol_value (name : String) : (nameSymbol name).value = name := by
  unfold nameSymbol
  split <;> rfl

/-- Both forms of a name are read as a name. -/
theorem isName_nameSymbol (name : String) (position : Position) :
    ((nameSymbol name).placedAt position).isName = true := by
  unfold nameSymbol
  split <;> rfl

/-! ### Statements -/

/-- A call of a block: an action or a rule. -/
inductive Statement where
  | action (action : Action)
  | rule (rule : Rule)
deriving DecidableEq, Repr

namespace Statement

def type : Statement → String
  | .action made => made.type
  | .rule made => made.type

def print (schema : Schema) : Statement → String
  | .action made => made.print schema
  | .rule made => made.print schema

/-- Whether nothing that comes after its text can be read as a part of a call: whether it has a
semicolon or a goto clause. -/
def ends (schema : Schema) : Statement → Bool
  | .action made => schema.actionHasSemicolon made.type
  | .rule _ => true

/-- A call whose text can be read. -/
def Readable (schema : Schema) : Statement → Prop
  | .action made => made.Readable schema
  | .rule made => made.Readable schema

/-- The block with one more call, as it comes back. -/
def addTo (schema : Schema) (current : OpenBlock) : Statement → OpenBlock
  | .action made => current.addAction (made.normal schema)
  | .rule made => current.addRule (made.normal schema)

end Statement

def State.toStatements (state : State) : List Statement :=
  state.actions.map .action ++ state.rules.map .rule

/-- No call runs into the next one: a call without a semicolon is not followed by one whose name is
the keyword of a goto clause. -/
def SeamFree (schema : Schema) (statements : List Statement) : Prop :=
  statements.IsChain fun left right =>
    left.ends schema = true ∨ Text.lowered right.type ≠ "goto"

instance (schema : Schema) (statements : List Statement) :
    Decidable (SeamFree schema statements) :=
  inferInstanceAs (Decidable (List.IsChain _ _))

def textOf (lines : List String) : List Char := lines.flatMap fun line => line.toList ++ ['\n']

@[simp] theorem textOf_nil : textOf [] = [] := rfl

@[simp] theorem textOf_cons (line : String) (lines : List String) :
    textOf (line :: lines) = line.toList ++ '\n' :: textOf lines := by
  simp [textOf]

@[simp] theorem textOf_append (left right : List String) :
    textOf (left ++ right) = textOf left ++ textOf right := List.flatMap_append

variable {schema : Schema} {pad : String} {quest : Quest} {current : OpenBlock}

/-- The text of a call begins with its name and a parenthesis. -/
theorem Statement.print_cons (schema : Schema) (statement : Statement) :
    ∃ rest, (statement.print schema).toList = statement.type.toList ++ '(' :: rest := by
  cases statement with
  | action made =>
      refine ⟨?_, ?_⟩
      rotate_left
      · simp only [Statement.print, Statement.type, Action.print, printCall, String.toList_append,
          List.append_assoc]
        rfl
  | rule made =>
      refine ⟨?_, ?_⟩
      rotate_left
      · simp only [Statement.print, Statement.type, Rule.print, printCall, String.toList_append,
          List.append_assoc]
        rfl

theorem Statement.Readable.type {statement : Statement} (hStatement : statement.Readable schema) :
    IsIdentifier statement.type := by
  cases statement with
  | action made => exact Action.Readable.type hStatement
  | rule made => exact Rule.Readable.type hStatement

/-- The first token of the line of a call is its name. -/
theorem Statement.Readable.meets {statement : Statement} (hStatement : statement.Readable schema)
    (hPad : IsPad pad) {property : Symbol → Prop} (hProperty : property ⟨.ident, statement.type⟩)
    (rest : List Char) : Meets ((pad ++ statement.print schema).toList ++ rest) property := by
  obtain ⟨tail, hText⟩ := statement.print_cons schema
  rw [String.toList_append, hText, List.append_assoc, List.append_assoc]
  have hForm := isIdentifier_wellFormed hStatement.type
  exact Meets.gaps hPad.gaps (Meets.symbol hForm (delimited_paren _ _) hProperty)

/-- The pieces of the line of a call, with what comes after its closing parenthesis. -/
def linePieces (pad name : String) (phrases : List Phrase) (ending : List Piece) : List Piece :=
  .gap pad.toList :: (callPieces name phrases ++ ending)

/-- A line of a call is well laid: the pad, the call, and an ending that goes up to the line feed.
-/
theorem wellLaid_linePieces (hPad : IsPad pad) {name : String} (hName : IsIdentifier name)
    {phrases : List Phrase} (hForms : ∀ phrase ∈ phrases, phrase.WellFormed) {ending : List Piece}
    {rest : List Char} (hEnding : WellLaid rest ending) :
    WellLaid rest (linePieces pad name phrases ending) :=
  ⟨hPad.gaps, Script.wellLaid_append.2 ⟨wellLaid_callPieces hName hForms _, hEnding⟩⟩

/-- The tokens of the line of a call: its name, its arguments between parentheses, and what comes
after them. -/
theorem place_linePieces (pad name : String) {phrases : List Phrase}
    (hForms : ∀ phrase ∈ phrases, phrase.WellFormed) (ending : List Piece) (position : Position) :
    ∃ called paren args after, place position (linePieces pad name phrases ending) =
        called :: paren :: (args ++ place after ending) ∧
      called.kind = .ident ∧ called.value = name ∧ paren.kind = .lparen ∧
      ArgumentListSpelled args (phrases.map Phrase.arg) := by
  let start := position.advance pad.toList
  let inner := (start.advance name.toList).advance "(".toList
  refine ⟨(⟨.ident, name⟩ : Symbol).placedAt start,
    (⟨.lparen, "("⟩ : Symbol).placedAt (start.advance name.toList),
    place inner (argumentPieces phrases), inner.advance (layout (argumentPieces phrases)), ?_,
    rfl, rfl, rfl, argumentListSpelled_place hForms inner⟩
  rw [← Script.place_append]
  rfl

/-- A line whose call is read, up to the end of the line, leads on to the block with the call. -/
theorem Leads.line {after : OpenBlock} (hBlock : after.block = current.block)
    (hOpener : after.opener = current.opener) (hPad : IsPad pad) {name : String}
    (hName : IsIdentifier name) {phrases : List Phrase}
    (hForms : ∀ phrase ∈ phrases, phrase.WellFormed) {ending : List Piece} {rest : List Char}
    (hEnding : WellLaid rest ending)
    (hCall : ∀ called args position place' tokens, called.value = name →
      ArgumentListSpelled args (phrases.map Phrase.arg) → tokensFrom position rest = .ok tokens →
        ∃ call, Script.readCall called (args ++ (place place' ending ++ tokens)) =
            .ok (call, tokens) ∧
          Takes schema quest (some current) (.call call) quest (some after)) :
    Leads schema (.inside quest current) (layout (linePieces pad name phrases ending) ++ rest)
      (.inside quest after) rest := by
  refine Leads.of_layout (wellLaid_linePieces hPad hName hForms hEnding) ?_
  intro position tokens hTokens
  obtain ⟨called, paren, args, after', hPlace, hKind, hValue, hParen, hSpelled⟩ :=
    place_linePieces pad name hForms ending position
  obtain ⟨call, hRead, takes⟩ := hCall called args _ after' tokens hValue hSpelled hTokens
  rw [hPlace, List.cons_append, List.cons_append, List.append_assoc]
  refine Stage.resume_event ?_ takes
  rw [Stage.scope, Script.step_call hKind hParen, hRead, Stage.scope, hBlock, hOpener]
  rfl

/-- A line whose call has a fault ends the reading. -/
theorem Fails.line (hPad : IsPad pad) {name : String} (hName : IsIdentifier name)
    {phrases : List Phrase} (hForms : ∀ phrase ∈ phrases, phrase.WellFormed)
    {ending : List Piece} {rest : List Char} (hEnding : WellLaid rest ending)
    (hCall : ∀ called args position place' tokens,
      ArgumentListSpelled args (phrases.map Phrase.arg) → tokensFrom position rest = .ok tokens →
        ∃ fault, Script.readCall called (args ++ (place place' ending ++ tokens)) =
          .error fault) :
    Fails schema (.inside quest current) (layout (linePieces pad name phrases ending) ++ rest) := by
  refine Fails.of_layout (wellLaid_linePieces hPad hName hForms hEnding) ?_
  intro position tokens hTokens
  obtain ⟨called, paren, args, after, hPlace, hKind, _, hParen, hSpelled⟩ :=
    place_linePieces pad name hForms ending position
  obtain ⟨fault, hRead⟩ := hCall called args _ after tokens hSpelled hTokens
  rw [hPlace, List.cons_append, List.cons_append, List.append_assoc]
  apply Stage.resume_failure
  rw [Stage.scope, Script.step_call hKind hParen, hRead]
  rfl

theorem layout_actionLine {action : Action} {phrases : List Phrase}
    (hTexts : phrases.map Phrase.text =
      Param.printList action.params (schema.actionSlots action.type)) (rest : List Char) :
    (pad ++ action.print schema).toList ++ '\n' :: rest =
      layout (linePieces pad action.type phrases
        (if schema.actionHasSemicolon action.type then [mark .semi ";", lineEnd]
          else [lineEnd])) ++ rest := by
  simp only [Action.print, linePieces, String.toList_append, Script.layout_cons,
    Script.layout_append, layout_callPieces hTexts, List.append_assoc]
  split <;> rfl

/-- The line of an action is read as the action that comes back. -/
theorem Action.Readable.leads {action : Action} (hAction : action.Readable schema)
    (hPad : IsPad pad) {rest : List Char} (hNext : Meets rest NoSemicolon)
    (hSeam : schema.actionHasSemicolon action.type = true ∨ Meets rest NoGoto) :
    Leads schema (.inside quest current) ((pad ++ action.print schema).toList ++ '\n' :: rest)
      (.inside quest (current.addAction (action.normal schema))) rest := by
  obtain ⟨phrases, hForms, hTexts, hArgs, hFits⟩ := hAction.params.exists_phrases
  have hTakes (called : Token) (ended : Bool) (hValue : called.value = action.type) :
      Takes schema quest (some current)
        (.call ⟨called, phrases.map Phrase.arg, none, ended⟩) quest
        (some (current.addAction (action.normal schema))) := by
    have hActionOf : Draft.actionOf schema ⟨called, phrases.map Phrase.arg, none, ended⟩ =
        action.normal schema := by
      simp only [Draft.actionOf, hValue, hArgs, Action.normal]
    rw [← hActionOf]
    rw [← hValue] at hFits
    exact Takes.action rfl (by rw [hValue]; exact hAction.allowed) hFits
  rw [layout_actionLine hTexts]
  by_cases hSemicolon : schema.actionHasSemicolon action.type = true
  · rw [if_pos hSemicolon]
    refine Leads.line (by rfl) (by rfl) hPad hAction.type hForms (wellLaid_semicolon rest) ?_
    intro called args position place' tokens hValue hSpelled hTokens
    have hEnd : SemicolonSpelled [(⟨.semi, ";"⟩ : Symbol).placedAt place'] true :=
      SemicolonSpelled.present rfl
    exact ⟨_, Script.readCall_action hSpelled hEnd rfl (by simp), hTakes called true hValue⟩
  · rw [if_neg hSemicolon]
    refine Leads.line (by rfl) (by rfl) hPad hAction.type hForms (wellLaid_lineEnd rest) ?_
    intro called args position place' tokens hValue hSpelled hTokens
    have hNoGoto : (nextToken tokens).isKeyword "goto" = false :=
      isKeyword_goto_eq_false ((hSeam.resolve_left hSemicolon) position tokens hTokens)
    have hNoSemicolon : (nextToken tokens).kind ≠ .semi := hNext position tokens hTokens
    exact ⟨_, Script.readCall_action hSpelled SemicolonSpelled.absent hNoGoto fun _ => hNoSemicolon,
      hTakes called false hValue⟩

def gotoPieces (target : String) : List Piece :=
  [space, .symbol ⟨.ident, "goto"⟩, space, .symbol (nameSymbol target), lineEnd]

theorem wellLaid_gotoPieces {target : String} (hTarget : Quotable target) (rest : List Char) :
    WellLaid rest (gotoPieces target) :=
  ⟨space_gaps, ⟨by decide, by decide⟩, delimited_space _ _, space_gaps,
    nameSymbol_wellFormed hTarget, delimited_lineEnd _ _, lineEnd_gaps, trivial⟩

/-- The line of a rule is read as the rule that comes back. -/
theorem Rule.Readable.leads {rule : Rule} (hRule : rule.Readable schema) (hPad : IsPad pad)
    {rest : List Char} (hNext : Meets rest NoSemicolon) :
    Leads schema (.inside quest current) ((pad ++ rule.print schema).toList ++ '\n' :: rest)
      (.inside quest (current.addRule (rule.normal schema))) rest := by
  obtain ⟨phrases, hForms, hTexts, hArgs, hFits⟩ := hRule.params.exists_phrases
  have hText : (pad ++ rule.print schema).toList ++ '\n' :: rest =
      layout (linePieces pad rule.type phrases (gotoPieces rule.goto)) ++ rest := by
    simp only [Rule.print, linePieces, gotoPieces, String.toList_append, Script.layout_cons,
      Script.layout_append, layout_callPieces hTexts, List.append_assoc, Piece.source,
      source_nameSymbol]
    rfl
  rw [hText]
  refine Leads.line (by rfl) (by rfl) hPad hRule.type hForms (wellLaid_gotoPieces hRule.goto rest) ?_
  intro called args position place' tokens hValue hSpelled hTokens
  have hNoSemicolon : (nextToken tokens).kind ≠ .semi := hNext position tokens hTokens
  let keyword := (⟨.ident, "goto"⟩ : Symbol).placedAt (place'.advance [' '])
  let target := (nameSymbol rule.goto).placedAt
    (((place'.advance [' ']).advance "goto".toList).advance [' '])
  have hLine : target.line = keyword.line := rfl
  have hTarget : target.isName = true := isName_nameSymbol _ _
  have hRead : Script.readCall called (args ++ keyword :: target :: tokens) = _ :=
    Script.readCall_rule hSpelled (isKeyword_placedAt (by decide) _) hTarget hLine hNoSemicolon
  have hTargetValue : target.value = rule.goto := nameSymbol_value rule.goto
  rw [hTargetValue] at hRead
  refine ⟨_, hRead, ?_⟩
  have hRuleOf : Draft.ruleOf schema
      ⟨called, phrases.map Phrase.arg, some rule.goto, false⟩ rule.goto = rule.normal schema := by
    simp only [Draft.ruleOf, hValue, hArgs, Rule.normal]
  rw [← hRuleOf]
  rw [← hValue] at hFits
  exact Takes.rule rfl hFits

/-! ### The calls of a block -/

/-- A readable statement is read from its line and added to the open block. A call without
semicolon needs that no goto clause seems to follow. -/
theorem Statement.Readable.leads {statement : Statement} (hStatement : statement.Readable schema)
    (hPad : IsPad pad) {rest : List Char} (hNext : Meets rest NoSemicolon)
    (hSeam : statement.ends schema = true ∨ Meets rest NoGoto) :
    Leads schema (.inside quest current) ((pad ++ statement.print schema).toList ++ '\n' :: rest)
      (.inside quest (statement.addTo schema current)) rest := by
  cases statement with
  | action made => exact Action.Readable.leads hStatement hPad hNext hSeam
  | rule made => exact Rule.Readable.leads hStatement hPad hNext

/-- The first two tokens of the line of a call are its name and a parenthesis. -/
theorem Statement.Readable.tokens {statement : Statement} (hStatement : statement.Readable schema)
    (hPad : IsPad pad) {rest : List Char} {position : Position} {tokens : List Token}
    (hTokens : tokensFrom position ((pad ++ statement.print schema).toList ++ rest) = .ok tokens) :
    ∃ called paren more, tokens = called :: paren :: more ∧ called.kind = .ident ∧
      called.value = statement.type ∧ paren.kind = .lparen := by
  obtain ⟨tail, hText⟩ := statement.print_cons schema
  let pieces : List Piece := [.gap pad.toList, .symbol ⟨.ident, statement.type⟩, mark .lparen "("]
  have hLaid : WellLaid (tail ++ rest) pieces :=
    ⟨hPad.gaps, isIdentifier_wellFormed hStatement.type, delimited_paren _ _,
      wellLaid_mark ⟨by decide, by decide⟩ (by decide) (by decide) trivial⟩
  have hLayout : (pad ++ statement.print schema).toList ++ rest =
      layout pieces ++ (tail ++ rest) := by
    rw [String.toList_append, hText, List.append_assoc, List.append_assoc]
    simp only [pieces, Script.layout_cons, List.append_assoc]
    rfl
  rw [hLayout] at hTokens
  obtain ⟨more, rfl, _⟩ := Script.exists_tokens_layout hLaid hTokens
  exact ⟨_, _, more, rfl, rfl, rfl, rfl⟩

/-- A call without a semicolon before a call of the name goto is not read. -/
theorem Statement.Readable.fails {statement next : Statement}
    (hStatement : statement.Readable schema) (hPad : IsPad pad) (hNext : next.Readable schema)
    (hEnds : ¬statement.ends schema = true) (hGoto : Text.lowered next.type = "goto")
    (rest : List Char) :
    Fails schema (.inside quest current)
      ((pad ++ statement.print schema).toList ++
        '\n' :: ((pad ++ next.print schema).toList ++ rest)) := by
  cases statement with
  | rule made => exact absurd rfl hEnds
  | action made =>
      have hAction : made.Readable schema := hStatement
      have hSemicolon : ¬schema.actionHasSemicolon made.type = true := hEnds
      obtain ⟨phrases, hForms, hTexts, _⟩ := hAction.params.exists_phrases
      change Fails schema _ ((pad ++ made.print schema).toList ++ _)
      rw [layout_actionLine hTexts, if_neg hSemicolon]
      refine Fails.line hPad hAction.type hForms (wellLaid_lineEnd rest) ?_
      intro called args position place' tokens hSpelled hTokens
      obtain ⟨keyword, paren, more, rfl, hKind, hValue, hParen⟩ := hNext.tokens hPad hTokens
      have hKeyword : keyword.isKeyword "goto" = true := by
        simp [Token.isKeyword, hKind, hValue, hGoto]
      exact ⟨_, Script.readCall_seam hSpelled hKeyword hParen⟩

/-- The lines of the calls of a block are read as the calls that come back, if none of them runs into
the next one. -/
theorem Leads.statements {statements : List Statement}
    (hStatements : ∀ statement ∈ statements, statement.Readable schema) (hPad : IsPad pad)
    {rest : List Char} (hNext : Meets rest NoSemicolon) (hGoto : Meets rest NoGoto)
    (hSeams : SeamFree schema statements) :
    Leads schema (.inside quest current)
      (textOf (statements.map fun statement => pad ++ statement.print schema) ++ rest)
      (.inside quest (statements.foldl (Statement.addTo schema) current)) rest := by
  induction statements generalizing current with
  | nil => exact Leads.refl
  | cons statement statements ih =>
      have hFirst := hStatements statement (by simp)
      have hRest : ∀ other ∈ statements, other.Readable schema :=
        fun other hMem => hStatements other (by simp [hMem])
      obtain ⟨hHead, hTail⟩ := List.isChain_cons.1 hSeams
      rw [List.map_cons, textOf_cons, List.append_assoc, List.cons_append]
      refine Leads.trans ?_ (ih hRest hTail)
      cases statements with
      | nil => exact hFirst.leads hPad hNext (Or.inr hGoto)
      | cons next statements =>
          have hNextReadable := hRest next (by simp)
          rw [List.map_cons, textOf_cons, List.append_assoc]
          refine hFirst.leads hPad (hNextReadable.meets hPad (by simp [NoSemicolon]) _) ?_
          rcases hHead next rfl with hEnds | hName
          · exact Or.inl hEnds
          · exact Or.inr (hNextReadable.meets hPad (by simp [NoGoto, hName]) _)

/-- Where a call runs into the next one, the block is not read. -/
theorem Fails.statements {statements : List Statement}
    (hStatements : ∀ statement ∈ statements, statement.Readable schema) (hPad : IsPad pad)
    {rest : List Char} (hSeams : ¬SeamFree schema statements) :
    Fails schema (.inside quest current)
      (textOf (statements.map fun statement => pad ++ statement.print schema) ++ rest) := by
  induction statements generalizing current with
  | nil => exact absurd List.isChain_nil hSeams
  | cons statement statements ih =>
      have hFirst := hStatements statement (by simp)
      have hRest : ∀ other ∈ statements, other.Readable schema :=
        fun other hMem => hStatements other (by simp [hMem])
      cases statements with
      | nil => exact absurd (List.isChain_singleton _) hSeams
      | cons next statements =>
          have hNextReadable := hRest next (by simp)
          rw [SeamFree, List.isChain_cons_cons] at hSeams
          rw [List.map_cons, textOf_cons, List.append_assoc, List.cons_append]
          by_cases hSeam : statement.ends schema = true ∨ Text.lowered next.type ≠ "goto"
          · have hTail : ¬SeamFree schema (next :: statements) :=
              fun hTail => hSeams ⟨hSeam, hTail⟩
            have hFails := @ih (statement.addTo schema current) hRest hTail
            refine Leads.fails ?_ hFails
            rw [List.map_cons, textOf_cons, List.append_assoc]
            refine hFirst.leads hPad (hNextReadable.meets hPad (by simp [NoSemicolon]) _) ?_
            refine hSeam.imp_right fun hName => ?_
            exact hNextReadable.meets hPad (by simp [NoGoto, hName]) _
          · rw [not_or, ne_eq, not_not] at hSeam
            rw [List.map_cons, textOf_cons, List.append_assoc]
            exact hFirst.fails hPad hNextReadable hSeam.1 hSeam.2 _

end QuestScript

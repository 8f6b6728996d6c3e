import QuestScript.Proofs.Number.Limit
import QuestScript.Proofs.Quest.Reading
import QuestScript.Proofs.Script.Phrase
/-!
The quest that a script gives back, and the quests whose scripts can be read. A parameter in a
declared slot comes back with the type of the slot, the main block with its own name, and every call
with the text that it was written as; all else comes back as it is.
-/

namespace QuestScript

open Script (Arg Kind Phrase Symbol isStringChar)

/-! ### Normal quests -/

namespace Param

/-- The parameter that comes back from a declared slot. -/
def normalIn (param : Param) : Schema.SlotType → Param
  | .string => .quoted param.valueText
  | .integer =>
    match param with
    | .text value _ => .int (Integer.leadingD value 0)
    | .int value => .int value

/-- The parameter that comes back where no slot is declared. An empty text is never bare. -/
def normal : Param → Param
  | .text value bare => .text value (bare && !value.isEmpty)
  | .int value => .int value

/-- The parameters that come back from a call with declared slots. -/
def normalList : List Param → List Schema.Slot → List Param
  | [], _ => []
  | param :: params, [] => param.normal :: normalList params []
  | param :: params, slot :: slots => param.normalIn slot.type :: normalList params slots

/-- Printing loses nothing that reading gives back, so a parameter and its normal form have one
text. -/
theorem print_normal (param : Param) : param.normal.print = param.print := by
  cases param with
  | int value => rfl
  | text value bare => simp [normal, print]

theorem printIn_normalIn (param : Param) (type : Schema.SlotType) :
    (param.normalIn type).printIn type = param.printIn type := by
  cases type <;> cases param <;> rfl

/-- The arguments of a call and their normal forms are printed alike, slot by slot. -/
theorem printList_normalList (params : List Param) (slots : List Schema.Slot) :
    printList (normalList params slots) slots = printList params slots := by
  fun_induction normalList params slots with
  | case1 => rfl
  | case2 param params ih => rw [printList, printList, print_normal, ih]
  | case3 param params slot slots ih => rw [printList, printList, printIn_normalIn, ih]

end Param

def Action.normal (schema : Schema) (action : Action) : Action :=
  Action.refresh schema
    ⟨action.type, Param.normalList action.params (schema.actionSlots action.type), ""⟩

def Rule.normal (schema : Schema) (rule : Rule) : Rule :=
  Rule.refresh schema
    ⟨rule.type, Param.normalList rule.params (schema.ruleSlots rule.type), rule.goto, ""⟩

def State.normal (schema : Schema) (state : State) : State :=
  { state with
    actions := state.actions.map (Action.normal schema)
    rules := state.rules.map (Rule.normal schema) }

def Quest.normal (schema : Schema) (quest : Quest) : Quest :=
  { quest with
    extra := quest.extra.map (Option.map Param.normal)
    main := quest.main.map fun main => { main.normal schema with name := "Main" }
    states := quest.states.map (State.normal schema) }

/-- The normal form of an action has the text of the action. The same holds of rules and of whole
blocks. -/
theorem Action.print_normal (schema : Schema) (action : Action) :
    (action.normal schema).print schema = action.print schema := by
  simp [Action.normal, Action.refresh, Action.print, printCall, Param.printList_normalList]

theorem Rule.print_normal (schema : Schema) (rule : Rule) :
    (rule.normal schema).print schema = rule.print schema := by
  simp [Rule.normal, Rule.refresh, Rule.print, printCall, Param.printList_normalList]

theorem State.bodyLines_normal (schema : Schema) (pad : String) (state : State) :
    (state.normal schema).bodyLines schema pad = state.bodyLines schema pad := by
  simp [State.normal, State.bodyLines, State.descLines, Function.comp_def, Action.print_normal,
    Rule.print_normal]

/-- A quest and the quest that comes back from it have one script. -/
theorem Quest.print_normal (schema : Schema) (pad : String) (quest : Quest) :
    (quest.normal schema).print schema pad = quest.print schema pad := by
  have hExtra : (quest.normal schema).extra.entries.map printExtra =
      quest.extra.entries.map printExtra := by
    simp only [Quest.normal, Table.map, List.map_map]
    apply List.map_congr_left
    rintro ⟨key, value⟩ _
    cases value <;> simp [printExtra, Param.print_normal]
  have hAttributes : (quest.normal schema).attributeLines = quest.attributeLines := by
    rw [Quest.attributeLines, Quest.attributeLines, hExtra]
    rfl
  have hMain : (quest.normal schema).main.toList.map (State.printMain schema pad) =
      quest.main.toList.map (State.printMain schema pad) := by
    cases hQuest : quest.main with
    | none => simp [Quest.normal, hQuest]
    | some main =>
        have hPrint := congrArg (printBlock "Main") (State.bodyLines_normal schema pad main)
        rw [Quest.normal, hQuest]
        exact congrArg (fun text => [text]) hPrint
  have hStates : (quest.normal schema).states.map (State.print schema pad) =
      quest.states.map (State.print schema pad) := by
    rw [Quest.normal, List.map_map]
    apply List.map_congr_left
    intro state _
    rw [Function.comp_apply, State.print, State.print, State.bodyLines_normal]
    rfl
  rw [Quest.print, Quest.print, Quest.sections, Quest.sections, hAttributes, hMain, hStates]
  rfl

/-! ### Readable quests -/

/-- A text that can stand between quotes: it has neither a quote nor a line feed. -/
def Quotable (text : String) : Prop := text.toList.all isStringChar = true

instance (text : String) : Decidable (Quotable text) := inferInstanceAs (Decidable (_ = true))

/-- A text that is one identifier. -/
def IsIdentifier (text : String) : Prop := Kind.ident.admits text.toList = true

instance (text : String) : Decidable (IsIdentifier text) := inferInstanceAs (Decidable (_ = true))

namespace Param

/-- A parameter that is read as itself where no slot is declared: a text between quotes can stand
there, a bare one is the text of an argument, and an integer has few enough digits. -/
def Readable : Param → Prop
  | .text value bare =>
    if bare && !value.isEmpty then
      ∃ phrase : Phrase, phrase.WellFormed ∧ phrase.text = value ∧
        sniff phrase.arg = .text value true
    else Quotable value
  | .int value => Integer.fits value = true

/-- A parameter that is read as itself in a declared slot. In an integer slot it is written as an
integer, and that has few enough digits. -/
def ReadableIn (param : Param) : Schema.SlotType → Prop
  | .string => Quotable param.valueText
  | .integer => param.printInFault? .integer = none

/-- Parameters of a call with declared slots that are read as themselves. -/
def ReadableList : List Param → List Schema.Slot → Prop
  | [], _ => True
  | param :: params, [] => param.Readable ∧ ReadableList params []
  | param :: params, slot :: slots => param.ReadableIn slot.type ∧ ReadableList params slots

end Param

/-- The phrase of one token is an argument. -/
theorem Script.Phrase.single_wellFormed {kind : Kind} {value : String}
    (hAdmits : kind.admits value.toList = true)
    (hArgument : (⟨kind, value⟩ : Symbol).isArgument = true) :
    (Phrase.single kind value).WellFormed := by
  refine ⟨⟨hAdmits, ?_⟩, hArgument, trivial⟩
  intro hEof
  have hKind : kind = .eof := hEof
  subst hKind
  cases hArgument

theorem Script.Phrase.text_single (symbol : Symbol) :
    (⟨symbol, []⟩ : Phrase).text.toList = symbol.source := by
  simp [Phrase.text, Phrase.pieces, Phrase.morePieces, Script.Piece.source]

/-- A text that can be quoted is one phrase, read back as a quoted argument. -/
theorem exists_phrase_quoted {text : String} (hText : Quotable text) :
    ∃ phrase : Phrase, phrase.WellFormed ∧ phrase.more = [] ∧ phrase.text = inQuotes text ∧
      phrase.arg = .quoted text := by
  refine ⟨.single .string text, Phrase.single_wellFormed hText rfl, rfl, ?_, rfl⟩
  rw [← String.toList_inj, Phrase.single, Phrase.text_single]
  simp [Symbol.source, inQuotes]

/-- An integer is one phrase, read back as a number. A sign belongs to the token. -/
theorem exists_phrase_int (n : Int) :
    ∃ phrase : Phrase, phrase.WellFormed ∧ phrase.more = [] ∧ phrase.text = toString n ∧
      phrase.arg = .number (toString n) := by
  refine ⟨.single .number (toString n),
    Phrase.single_wellFormed (Integer.admits_toString n) rfl, rfl, ?_, rfl⟩
  rw [← String.toList_inj, Phrase.single, Phrase.text_single]
  rfl

namespace Param

/-- An argument that stays text is not converted. -/
theorem sniffFault?_of_sniff_eq_text {arg : Arg} {value : String} {bare : Bool}
    (hText : sniff arg = .text value bare) : sniffFault? arg = none := by
  cases arg with
  | quoted => rfl
  | word => rfl
  | number number =>
      unfold sniff at hText
      unfold sniffFault?
      dsimp only at hText ⊢
      split at hText
      · cases hText
      · next hOther => rw [if_neg hOther]

/-- A readable parameter is printed as a phrase that is read as the normal form, with no integer
too long. -/
theorem Readable.exists_phrase {param : Param} (hParam : param.Readable) :
    ∃ phrase : Phrase, phrase.WellFormed ∧ phrase.text = param.print ∧
      sniff phrase.arg = param.normal ∧ sniffFault? phrase.arg = none := by
  cases param with
  | int n =>
      obtain ⟨phrase, hForm, _, hText, hArg⟩ := exists_phrase_int n
      refine ⟨phrase, hForm, hText, by rw [hArg, sniff_toString]; rfl, ?_⟩
      rw [hArg, sniffFault?_toString_eq_none_iff]
      exact hParam
  | text value bare =>
      rw [Readable] at hParam
      rw [print, normal]
      by_cases hBare : (bare && !value.isEmpty) = true
      · rw [if_pos hBare] at hParam ⊢
        obtain ⟨phrase, hForm, hText, hArg⟩ := hParam
        exact ⟨phrase, hForm, hText, by rw [hArg, hBare], sniffFault?_of_sniff_eq_text hArg⟩
      · rw [if_neg hBare] at hParam ⊢
        obtain ⟨phrase, hForm, _, hText, hArg⟩ := exists_phrase_quoted hParam
        refine ⟨phrase, hForm, hText, ?_, by rw [hArg]; rfl⟩
        rw [hArg, Bool.eq_false_iff.2 hBare]
        rfl

/-- The integer that is written in an integer slot has few enough digits, if it can be written. -/
theorem fits_of_printInFault? {param : Param} (hParam : param.printInFault? .integer = none) :
    ∃ n, param.printIn .integer = toString n ∧ param.normalIn .integer = .int n ∧
      Integer.fits n = true := by
  cases param with
  | text value bare =>
      exact ⟨_, rfl, rfl, Integer.fits_leadingD hParam Integer.fits_zero⟩
  | int value => exact ⟨value, rfl, rfl, Integer.textFault?_eq_none_iff.1 hParam⟩

/-- A parameter that a slot can read is printed for the slot as a phrase and read back in normal
form. -/
theorem ReadableIn.exists_phrase {param : Param} {type : Schema.SlotType}
    (hParam : param.ReadableIn type) :
    ∃ phrase : Phrase, phrase.WellFormed ∧ phrase.text = param.printIn type ∧
      coerce phrase.arg type = param.normalIn type ∧ coerceFault? phrase.arg type = none := by
  cases type with
  | string =>
      obtain ⟨phrase, hForm, _, hText, hArg⟩ := exists_phrase_quoted hParam
      exact ⟨phrase, hForm, hText, by rw [hArg]; rfl, by rw [hArg]; rfl⟩
  | integer =>
      obtain ⟨n, hPrint, hNormal, hFits⟩ := fits_of_printInFault? hParam
      obtain ⟨phrase, hForm, _, hText, hArg⟩ := exists_phrase_int n
      refine ⟨phrase, hForm, by rw [hText, hPrint], ?_, ?_⟩
      · rw [hArg, hNormal, coerce, Arg.text, Integer.leadingD_toString]
        nofun
      · rw [hArg]
        exact Integer.leadingInFault?_toString_eq_none_iff.2 hFits

/-- The text of readable parameters is the text of phrases that are read as the parameters. -/
theorem ReadableList.exists_phrases {params : List Param} {slots : List Schema.Slot}
    (hParams : ReadableList params slots) :
    ∃ phrases : List Phrase, (∀ phrase ∈ phrases, phrase.WellFormed) ∧
      phrases.map Phrase.text = printList params slots ∧
      ofArgs (phrases.map Phrase.arg) slots = normalList params slots ∧
      argsFault? (phrases.map Phrase.arg) slots = none := by
  fun_induction ReadableList params slots with
  | case1 => exact ⟨[], by simp, rfl, rfl, rfl⟩
  | case2 param params ih =>
      obtain ⟨phrase, hForm, hText, hArg, hFits⟩ := hParams.1.exists_phrase
      obtain ⟨phrases, hForms, hTexts, hArgs, hAllFit⟩ := ih hParams.2
      refine ⟨phrase :: phrases, List.forall_mem_cons.2 ⟨hForm, hForms⟩, ?_, ?_, ?_⟩
      · rw [List.map_cons, hText, hTexts, printList]
      · rw [List.map_cons, ofArgs, hArg, hArgs, normalList]
      · exact Option.or_eq_none_iff.2 ⟨hFits, hAllFit⟩
  | case3 param params slot slots ih =>
      obtain ⟨phrase, hForm, hText, hArg, hFits⟩ := hParams.1.exists_phrase
      obtain ⟨phrases, hForms, hTexts, hArgs, hAllFit⟩ := ih hParams.2
      refine ⟨phrase :: phrases, List.forall_mem_cons.2 ⟨hForm, hForms⟩, ?_, ?_, ?_⟩
      · rw [List.map_cons, hText, hTexts, printList]
      · rw [List.map_cons, ofArgs, hArg, hArgs, normalList]
      · exact Option.or_eq_none_iff.2 ⟨hFits, hAllFit⟩

end Param

/-- An action whose text is read as the action that comes back. -/
structure Action.Readable (schema : Schema) (action : Action) : Prop where
  type : IsIdentifier action.type
  params : Param.ReadableList action.params (schema.actionSlots action.type)
  allowed : schema.AllowsAction action.type

/-- A rule whose text is read as the rule that comes back. -/
structure Rule.Readable (schema : Schema) (rule : Rule) : Prop where
  type : IsIdentifier rule.type
  params : Param.ReadableList rule.params (schema.ruleSlots rule.type)
  goto : Quotable rule.goto

/-- A block of statements whose calls and description can be read. -/
structure State.Readable (schema : Schema) (state : State) : Prop where
  description : Quotable state.description
  actions : ∀ action ∈ state.actions, action.Readable schema
  rules : ∀ rule ∈ state.rules, rule.Readable schema

/-- A random block that can be read. -/
structure RandomBlock.Readable (block : RandomBlock) : Prop where
  name : Quotable block.name
  targets : ∀ target ∈ block.targets, Quotable target.state
  weights : ∀ target ∈ block.targets, ∃ weight : Int, target.weight = .int weight ∧
    Integer.fits weight = true ∧ 0 ≤ weight

/-- A value of one token that is read as itself. -/
def Param.ReadableAlone (param : Param) : Prop :=
  ∃ symbol : Symbol, symbol.WellFormed ∧ symbol.isArgument = true ∧
    symbol.source = param.print.toList ∧ sniff (⟨symbol, []⟩ : Phrase).arg = param.normal ∧
    sniffFault? (⟨symbol, []⟩ : Phrase).arg = none

/-- An attribute without a field whose line can be read. -/
structure ExtraReadable (entry : String × Option Param) : Prop where
  key : IsIdentifier entry.1
  unknown : Attribute.ofKey? entry.1 = none
  value : ∀ param, entry.2 = some param → param.ReadableAlone

/-- A quest each of whose parts can be read. Where one line runs into the next is not asked here. -/
structure Quest.Readable (schema : Schema) (quest : Quest) : Prop where
  name : Quotable quest.name
  version : ∃ version : Int, quest.version = .int version ∧ Integer.fits version = true
  gates : ∀ gate number, quest.gates.get gate = some number →
    ∃ n : Int, number = .int n ∧ Integer.fits n = true
  extra : ∀ entry ∈ quest.extra.entries, ExtraReadable entry
  blocks : ∀ block ∈ quest.blocks, block.Readable schema
  stateTexts : ∀ state ∈ quest.states, Quotable state.name
  stateNames : quest.stateNames.Nodup
  random : ∀ block ∈ quest.random, block.Readable
  randomNames : (quest.random.map RandomBlock.name).Nodup

end QuestScript

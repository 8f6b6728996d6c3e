import QuestScript.Proofs.Quest.Canonical
import QuestScript.Proofs.Quest.Normal
/-!
Where the parts of a quest come from. Every text of a quest that was read from a script is the value of
a token, apart from the parameters, which are made from phrases; every call of the quest is a call of
the script; and every integer was read from few enough digits. Unlike what makes a quest canonical, this cannot be told from the quest alone.
-/

namespace QuestScript

open Script (Arg ArgumentListSpelled Call Event EventSpelled GotoSpelled Kind Phrase ScriptSpelled Section Symbol
  TargetsSpelled Token ValueSpelled)

/-! ### Events -/

/-- An event whose texts are values of tokens, whose arguments are those of phrases, and whose weights
have few enough digits. -/
def Script.Event.Sound : Event → Prop
  | .attr key value => IsIdentifier key.value ∧ ∀ arg ∈ value, ∃ symbol : Symbol,
      symbol.WellFormed ∧ symbol.isArgument = true ∧ (⟨symbol, []⟩ : Phrase).arg = arg
  | .openMain _ => True
  | .openState _ name => Quotable name
  | .desc _ text => Quotable text
  | .call made => IsIdentifier made.name.value ∧ (∀ target ∈ made.goto, Quotable target) ∧
      ∀ arg ∈ made.args, ∃ phrase : Phrase, phrase.WellFormed ∧ phrase.arg = arg
  | .close => True
  | .random _ name targets => Quotable name ∧ ∀ target ∈ targets, Quotable target.1 ∧
      Integer.fits target.2 = true

/-- Every token has a value that can stand between quotes, be it a string or not. -/
theorem Script.Token.quotable_value {token : Token} (hForm : token.WellFormed) :
    Quotable token.value :=
  List.all_eq_true.2 fun _ hMem => Kind.isStringChar_of_admits hForm hMem

theorem Script.Token.isIdentifier_value {token : Token} (hForm : token.WellFormed)
    (hKind : token.kind = .ident) : IsIdentifier token.value := by
  rw [Token.WellFormed, hKind] at hForm
  exact hForm

/-- A value of an attribute is one token of the script. -/
theorem Script.ValueSpelled.exists_symbol {key : Token} {tokens : List Token} {value : Option Arg}
    (spelled : ValueSpelled key tokens value) (hForm : ∀ token ∈ tokens, token.WellFormed) :
    ∀ arg ∈ value, ∃ symbol : Symbol, symbol.WellFormed ∧ symbol.isArgument = true ∧
      (⟨symbol, []⟩ : Phrase).arg = arg := by
  have hToken {token : Token} (hToken : token.WellFormed) (hArgument : token.isArgument = true) :
      ∃ symbol : Symbol, symbol.WellFormed ∧ symbol.isArgument = true ∧
        (⟨symbol, []⟩ : Phrase).arg = Arg.ofToken token :=
    ⟨token.symbol, Phrase.wellFormed_symbol hToken hArgument, hArgument,
      Phrase.arg_ofTokens token []⟩
  cases spelled with
  | absent => simp
  | loose hLoose =>
      intro arg hMem
      cases hMem
      exact hToken (hForm _ (by simp)) (Script.isArgument_of_isLooseValue hLoose)
  | assigned hEquals hValue =>
      intro arg hMem
      cases hMem
      exact hToken (hForm _ (by simp)) hValue

/-- The target of a goto clause is the value of a token. -/
theorem Script.GotoSpelled.quotable {tokens : List Token} {goto : Option String}
    (spelled : GotoSpelled tokens goto) (hForm : ∀ token ∈ tokens, token.WellFormed) :
    ∀ target ∈ goto, Quotable target := by
  cases spelled with
  | absent => simp
  | clause hKeyword hTarget hLine =>
      intro target hMem
      cases hMem
      exact Token.quotable_value (hForm _ (by simp))

/-- The targets of a random block have names that can be quoted, and weights within the limit that
are not negative. -/
theorem Script.TargetsSpelled.sound {tokens : List Token} {targets : List (String × Int)}
    (spelled : TargetsSpelled tokens targets) (hForm : ∀ token ∈ tokens, token.WellFormed) :
    ∀ target ∈ targets, Quotable target.1 ∧ Integer.fits target.2 = true := by
  induction spelled with
  | close hKind => simp
  | separator hKind rest ih => exact ih fun token hToken => hForm token (by simp [hToken])
  | plain hName rest ih =>
      exact List.forall_mem_cons.2
        ⟨⟨Token.quotable_value (hForm _ (by simp)), Integer.fits_one⟩,
          ih fun token hToken => hForm token (by simp [hToken])⟩
  | weighted hName hWeight hFits hSign rest ih =>
      exact List.forall_mem_cons.2
        ⟨⟨Token.quotable_value (hForm _ (by simp)), Integer.fits_leadingD hFits Integer.fits_one⟩,
          ih fun token hToken => hForm token (by simp [hToken])⟩

/-- The texts of an event are values of well-formed tokens. So much is known of every event of a
script. -/
theorem Script.EventSpelled.sound {scope scope' : Script.Scope} {event : Event}
    {tokens : List Token} (spelled : EventSpelled scope event tokens scope')
    (hForm : ∀ token ∈ tokens, token.WellFormed) (hChain : tokens.IsChain Token.Follows) :
    event.Sound := by
  cases spelled with
  | @attr _ key value valueTokens semicolon ended hKey hScope spelledValue spelledEnd =>
      exact ⟨Token.isIdentifier_value (hForm key (by simp)) hKey,
        spelledValue.exists_symbol fun token hToken => hForm token (by simp [hToken])⟩
  | openMain hOpener hBrace => trivial
  | @openState opener name brace hOpener hName hBrace =>
      exact Token.quotable_value (hForm name (by simp))
  | @desc block opener keyword text semicolon ended hKeyword hText spelledEnd =>
      exact Token.quotable_value (hForm text (by simp))
  | @call block opener name paren front args goto semicolon call hFront hName hCall hParen
      spelledArgs spelledGoto spelledEnd =>
      have hArgsChain : args.IsChain Token.Follows :=
        hChain.infix ⟨front ++ [name, paren], goto ++ semicolon, by simp⟩
      refine ⟨?_, ?_, ?_⟩
      · rw [hCall]
        exact Token.isIdentifier_value (hForm name (by simp)) hName
      · exact spelledGoto.quotable fun token hToken => hForm token (by simp [hToken])
      · exact spelledArgs.exists_phrase (fun token hToken => hForm token (by simp [hToken]))
          hArgsChain
  | close hBrace => trivial
  | @random opener name brace tokens targets hOpener hName hBrace spelled =>
      exact ⟨Token.quotable_value (hForm name (by simp)),
        spelled.sound fun token hToken => hForm token (by simp [hToken])⟩

/-- The events of a script are sound. -/
theorem Script.ScriptSpelled.sound {scope : Script.Scope} {events : List Event}
    {tokens : List Token} (spelled : ScriptSpelled scope events tokens)
    (hForm : ∀ token ∈ tokens, token.WellFormed) (hChain : tokens.IsChain Token.Follows) :
    ∀ event ∈ events, event.Sound := by
  induction spelled with
  | finished hFinal => simp
  | skip hKind rest ih =>
      exact ih (fun token hToken => hForm token (by simp [hToken])) (List.isChain_cons.1 hChain).2
  | event first rest ih =>
      refine List.forall_mem_cons.2 ⟨?_, ?_⟩
      · exact first.sound (fun token hToken => hForm token (by simp [hToken]))
          hChain.left_of_append
      · exact ih (fun token hToken => hForm token (by simp [hToken])) hChain.right_of_append

/-! ### The invariant -/

/-- A block whose description is the value of a token, and whose calls are calls of a script with
arguments that were read. -/
structure State.Sourced (schema : Schema) (state : State) : Prop where
  description : Quotable state.description
  actions : ∀ action ∈ state.actions,
    ∃ call : Call, (Event.call call).Sound ∧
      Param.argsFault? call.args (schema.actionSlots call.name.value) = none ∧
      action = Draft.actionOf schema call
  rules : ∀ rule ∈ state.rules, ∃ (call : Call) (goto : String), (Event.call call).Sound ∧
    call.goto = some goto ∧ Param.argsFault? call.args (schema.ruleSlots call.name.value) = none ∧
      rule = Draft.ruleOf schema call goto

/-- A quest whose parts are those of the events of a script. -/
structure Quest.Sourced (schema : Schema) (quest : Quest) : Prop where
  name : Quotable quest.name
  version : ∃ n : Int, quest.version = .int n ∧ Integer.fits n = true
  gates : ∀ gate number, quest.gates.get gate = some number →
    ∃ n : Int, number = .int n ∧ Integer.fits n = true
  extra : ∀ entry ∈ quest.extra.entries, ∃ (key : Token) (value : Option Arg),
    (Event.attr key value).Sound ∧ Attribute.ofKey? key.value = none ∧
      Draft.attributeFault? key value = none ∧ entry = (key.value, value.map Param.sniff)
  blocks : ∀ block ∈ quest.blocks, block.Sourced schema
  stateTexts : ∀ state ∈ quest.states, Quotable state.name
  random : ∀ block ∈ quest.random,
    Quotable block.name ∧ ∀ target ∈ block.targets, Quotable target.state ∧
      ∃ weight : Int, target.weight = .int weight ∧ Integer.fits weight = true

/-- A quest with an open block that may be added to it. -/
structure Quest.SourcedWith (schema : Schema) (quest : Quest) (current : Option OpenBlock) :
    Prop where
  quest : quest.Sourced schema
  state : ∀ block ∈ current, block.state.Sourced schema
  name : ∀ block ∈ current, Quotable block.state.name

theorem Quest.blank_sourced (schema : Schema) (id : Number) : (Quest.blank id).Sourced schema where
  name := (by decide : Quotable "")
  version := ⟨1, rfl, Integer.fits_one⟩
  gates := fun gate number hGate => by cases gate <;> cases hGate
  extra := nofun
  blocks := nofun
  stateTexts := nofun
  random := nofun

theorem State.named_sourced (schema : Schema) (name : String) :
    (State.named name).Sourced schema :=
  ⟨(by decide : Quotable ""), nofun, nofun⟩

/-- The text of an argument of one token can be quoted. -/
theorem Script.Phrase.arg_text_quotable {symbol : Symbol} (hForm : symbol.WellFormed) :
    Quotable (⟨symbol, []⟩ : Phrase).arg.text := by
  have hValue : Quotable symbol.value :=
    List.all_eq_true.2 fun _ hMem => Kind.isStringChar_of_admits hForm.admits hMem
  obtain ⟨kind, value⟩ := symbol
  cases kind <;> exact hValue

/-- Setting a gate changes the one gate and leaves the others. -/
theorem Gates.get_set (gates : Gates) (gate other : Gate) (value : Option Number) :
    (gates.set gate value).get other = if other = gate then value else gates.get other := by
  cases gate <;> cases other <;> rfl

/-- The integer of an attribute that was read, or its default. -/
theorem Draft.fits_attribute {key : Token} {value : Option Arg} {known : Attribute} {default : Int}
    (hKey : Attribute.ofKey? key.value = some known) (hName : known ≠ .questName)
    (hFits : Draft.attributeFault? key value = none) (hDefault : Integer.fits default = true) :
    Integer.fits ((value.map fun arg => Integer.leadingD arg.text default).getD default) = true := by
  cases value with
  | none => exact hDefault
  | some arg =>
      refine Integer.fits_leadingD ?_ hDefault
      rw [Draft.attributeFault?, hKey] at hFits
      cases known with
      | questName => exact absurd rfl hName
      | version => exact hFits
      | gate gate => exact hFits
      | flag flag => exact hFits

/-- A known attribute from a script keeps the quest one that has come from scripts. -/
theorem Quest.Sourced.setAttribute {schema : Schema} {quest : Quest}
    (hQuest : quest.Sourced schema) {key : Token} {value : Option Arg}
    (hSound : (Event.attr key value).Sound) {known : Attribute}
    (hKey : Attribute.ofKey? key.value = some known)
    (hFits : Draft.attributeFault? key value = none) :
    (Draft.setAttribute quest known value).Sourced schema := by
  cases known with
  | questName =>
      refine ⟨?_, hQuest.version, hQuest.gates, hQuest.extra, hQuest.blocks, hQuest.stateTexts,
        hQuest.random⟩
      cases value with
      | none => exact (by decide : Quotable "")
      | some arg =>
          obtain ⟨symbol, hForm, _, rfl⟩ := hSound.2 arg rfl
          exact Phrase.arg_text_quotable hForm
  | version =>
      have hVersion := Draft.fits_attribute hKey nofun hFits Integer.fits_one
      exact ⟨hQuest.name, ⟨_, rfl, hVersion⟩, hQuest.gates, hQuest.extra, hQuest.blocks,
        hQuest.stateTexts, hQuest.random⟩
  | gate gate =>
      refine ⟨hQuest.name, hQuest.version, ?_, hQuest.extra, hQuest.blocks, hQuest.stateTexts,
        hQuest.random⟩
      intro other number hOther
      simp only [Draft.setAttribute, Gates.get_set] at hOther
      split at hOther
      · cases hOther
        exact ⟨_, rfl, Draft.fits_attribute hKey nofun hFits Integer.fits_zero⟩
      · exact hQuest.gates other number hOther
  | flag flag =>
      exact ⟨hQuest.name, hQuest.version, hQuest.gates, hQuest.extra, hQuest.blocks,
        hQuest.stateTexts, hQuest.random⟩

/-- A block that has just been opened has its name and nothing else. -/
theorem Quest.Sourced.sourcedWith_opened {schema : Schema} {quest : Quest}
    (hQuest : quest.Sourced schema) {block : Script.Section} (hName : Quotable block.name)
    (opener : Token) : quest.SourcedWith schema (some (.opened block opener)) := by
  refine ⟨hQuest, ?_, ?_⟩ <;> rintro _ ⟨⟩
  · exact State.named_sourced schema _
  · exact hName

/-- A change of the content of an open block. -/
theorem Quest.SourcedWith.onBlock {schema : Schema} {quest : Quest} {current : Option OpenBlock}
    (sourced : quest.SourcedWith schema current) {change : OpenBlock → OpenBlock}
    (hState : ∀ old, old.state.Sourced schema → (change old).state.Sourced schema)
    (hName : ∀ old, (change old).state.name = old.state.name) :
    quest.SourcedWith schema (current.map change) := by
  refine ⟨sourced.quest, ?_, ?_⟩ <;> intro block hBlock <;>
    obtain ⟨old, hOld, rfl⟩ := Option.map_eq_some_iff.1 hBlock
  · exact hState old (sourced.state old hOld)
  · rw [hName old]
    exact sourced.name old hOld

/-- Taking an event keeps the invariant. -/
theorem Takes.sourced {schema : Schema} {quest quest' : Quest}
    {current current' : Option OpenBlock} {event : Event}
    (takes : Takes schema quest current event quest' current') (hSound : event.Sound)
    (sourced : quest.SourcedWith schema current) : quest'.SourcedWith schema current' := by
  have ⟨hQuest, hState, hName⟩ := sourced
  cases takes with
  | known hKey hFits => exact ⟨hQuest.setAttribute hSound hKey hFits, hState, hName⟩
  | @other _ key value hKey hFits =>
      refine ⟨⟨hQuest.name, hQuest.version, hQuest.gates, ?_, hQuest.blocks, hQuest.stateTexts,
        hQuest.random⟩, hState, hName⟩
      intro entry hMem
      rcases Table.mem_putEntry hMem with rfl | hOld
      · exact ⟨key, value, hSound, hKey, hFits, rfl⟩
      · exact hQuest.extra entry hOld
  | @openMain _ opener hMain =>
      have hQuotable : Quotable Script.Section.main.name := by decide
      exact hQuest.sourcedWith_opened hQuotable opener
  | @openState _ opener name =>
      have hQuotable : Quotable (Script.Section.state name).name := hSound
      exact hQuest.sourcedWith_opened hQuotable opener
  | desc =>
      exact sourced.onBlock (fun _ hOld => ⟨hSound, hOld.actions, hOld.rules⟩) fun _ => rfl
  | @action _ call hGoto hAllowed hFits =>
      refine sourced.onBlock (fun _ hOld => ⟨hOld.description, ?_, hOld.rules⟩) fun _ => rfl
      exact List.forall_mem_append.2
        ⟨hOld.actions, List.forall_mem_singleton.2 ⟨call, hSound, hFits, rfl⟩⟩
  | @rule _ call target hGoto hFits =>
      refine sourced.onBlock (fun _ hOld => ⟨hOld.description, hOld.actions, ?_⟩) fun _ => rfl
      exact List.forall_mem_append.2
        ⟨hOld.rules, List.forall_mem_singleton.2 ⟨call, target, hSound, hGoto, hFits, rfl⟩⟩
  | closeNone => exact ⟨hQuest, hState, hName⟩
  | @closeMain current hBlock =>
      refine ⟨⟨hQuest.name, hQuest.version, hQuest.gates, hQuest.extra, ?_, hQuest.stateTexts,
        hQuest.random⟩, nofun, nofun⟩
      exact Quest.forall_mem_blocks_closeMain hQuest.blocks (hState current rfl)
  | @closeState current name hBlock hFresh =>
      refine ⟨⟨hQuest.name, hQuest.version, hQuest.gates, hQuest.extra, ?_, ?_, hQuest.random⟩,
        nofun, nofun⟩
      · exact Quest.forall_mem_blocks_closeState hQuest.blocks (hState current rfl)
      · exact List.forall_mem_append.2
          ⟨hQuest.stateTexts, List.forall_mem_singleton.2 (hName current rfl)⟩
  | @random _ opener name targets hFresh =>
      refine ⟨⟨hQuest.name, hQuest.version, hQuest.gates, hQuest.extra, hQuest.blocks,
        hQuest.stateTexts, ?_⟩, hState, hName⟩
      refine List.forall_mem_append.2 ⟨hQuest.random, List.forall_mem_singleton.2 ⟨hSound.1, ?_⟩⟩
      intro target hMem
      obtain ⟨entry, hEntry, rfl⟩ := List.mem_map.1 hMem
      obtain ⟨hState, hWeight⟩ := hSound.2 entry hEntry
      exact ⟨hState, entry.2, rfl, hWeight⟩

/-- A run of sound events gives a quest that has come from a script. The induction is on the run.
-/
theorem Run.sourced {schema : Schema} {quest quest' : Quest} {current current' : Option OpenBlock}
    {events : List Event} (run : Run schema quest current events quest' current')
    (hSound : ∀ event ∈ events, event.Sound) (sourced : quest.SourcedWith schema current) :
    quest'.SourcedWith schema current' := by
  induction run with
  | nil => exact sourced
  | cons first rest ih =>
      obtain ⟨hFirst, hRest⟩ := List.forall_mem_cons.1 hSound
      exact ih hRest (first.sourced hFirst sourced)

/-- The parts of a quest that was read are those of the events of its script. -/
theorem Quest.parse_sourced {schema : Schema} {id : Number} {text : String} {quest : Quest}
    {warnings : List Warning} (hParse : Quest.parse schema id text = .ok (quest, warnings)) :
    quest.Sourced schema := by
  obtain ⟨tokens, events, current, hTokens, hOutline, run⟩ := Quest.parse_ok_iff.1 ⟨_, hParse⟩
  have spelled := Script.outlineFrom_spelled (Script.tokenize_complete hTokens) hOutline
  have hSound := spelled.sound (Script.tokenize_wellFormed hTokens) (Script.tokenize_chain hTokens)
  exact (run.sourced hSound ⟨Quest.blank_sourced schema id, nofun, nofun⟩).quest

end QuestScript

import QuestScript.Proofs.Quest.RoundTrip
import QuestScript.Proofs.Quest.Sourced
/-!
Quests that survive being written and read again. A quest that was read from a script is its own normal
quest, and each of its parts can be read unless a text in a string slot has a quote; so where no line
runs into the next one, its script gives it back as it is.
-/

namespace QuestScript

open Script (Arg Call Event Kind Phrase Symbol isStringChar)

/-- No text in a string slot has a quote. -/
def Param.QuoteFree (params : List Param) (slots : List Schema.Slot) : Prop :=
  ∀ entry ∈ params.zip slots, entry.2.type = .string → '"' ∉ entry.1.valueText.toList

instance (params : List Param) (slots : List Schema.Slot) :
    Decidable (Param.QuoteFree params slots) :=
  inferInstanceAs (Decidable (∀ _ ∈ _, _))

/-- No text in a string slot of a call has a quote. -/
def State.QuoteFree (schema : Schema) (state : State) : Prop :=
  (∀ action ∈ state.actions, Param.QuoteFree action.params (schema.actionSlots action.type)) ∧
    ∀ rule ∈ state.rules, Param.QuoteFree rule.params (schema.ruleSlots rule.type)

instance (schema : Schema) (state : State) : Decidable (state.QuoteFree schema) :=
  inferInstanceAs (Decidable (_ ∧ _))

/-- A quest whose script, if it was read from one, is read as the quest again. -/
structure Quest.Survives (schema : Schema) (quest : Quest) : Prop where
  quoteFree : ∀ block ∈ quest.blocks, block.QuoteFree schema
  looseKeysLast : quest.LooseKeysLast
  seamFree : quest.SeamFree schema

instance (schema : Schema) (quest : Quest) : Decidable (quest.Survives schema) :=
  decidable_of_iff
    ((∀ block ∈ quest.blocks, block.QuoteFree schema) ∧ quest.LooseKeysLast ∧ quest.SeamFree schema)
    ⟨fun ⟨hFree, hLoose, hSeams⟩ => ⟨hFree, hLoose, hSeams⟩,
      fun hSurvives => ⟨hSurvives.quoteFree, hSurvives.looseKeysLast, hSurvives.seamFree⟩⟩

/-- A text can be quoted when it has no quote and is on one line. -/
theorem quotable_iff {text : String} :
    Quotable text ↔ '"' ∉ text.toList ∧ OneLine text := by
  simp only [Quotable, List.all_eq_true, isStringChar, Bool.and_eq_true, decide_eq_true_eq, OneLine]
  constructor
  · intro hText
    exact ⟨fun hMem => (hText _ hMem).1 rfl, fun hMem => (hText _ hMem).2 rfl⟩
  · rintro ⟨hQuote, hLine⟩ c hMem
    exact ⟨fun hChar => hQuote (hChar ▸ hMem), fun hChar => hLine (hChar ▸ hMem)⟩

/-! ### Arguments -/

/-- An argument is a quoted text, or has the text of its phrase. -/
theorem Script.Phrase.WellFormed.arg_cases {phrase : Phrase} (hForm : phrase.WellFormed) :
    (∃ text, phrase.arg = .quoted text ∧ Quotable text) ∨
      phrase.arg = .number phrase.text ∨ phrase.arg = .word phrase.text := by
  obtain ⟨⟨kind, value⟩, more⟩ := phrase
  cases more with
  | cons entry more =>
      by_cases hNumber : kind = .number
      · exact Or.inr (Or.inl (by simp [Phrase.arg, hNumber]))
      · exact Or.inr (Or.inr (by simp [Phrase.arg, hNumber]))
  | nil =>
      have hValue := hForm.first.admits
      have hText : kind ≠ .string → (⟨⟨kind, value⟩, []⟩ : Phrase).text = value := by
        intro hString
        rw [← String.toList_inj, Phrase.text_single]
        cases kind <;> first | rfl | exact absurd rfl hString
      have hArgument : (⟨kind, value⟩ : Symbol).isArgument = true := hForm.isArgument
      cases kind <;> try cases hArgument
      · exact Or.inr (Or.inr (by rw [hText nofun]; rfl))
      · exact Or.inr (Or.inl (by rw [hText nofun]; rfl))
      · exact Or.inl ⟨value, rfl, hValue⟩

theorem Script.Phrase.WellFormed.text_isEmpty {phrase : Phrase} (hForm : phrase.WellFormed) :
    phrase.text.isEmpty = false := by
  obtain ⟨c, cs, hSource⟩ := hForm.first.source_cons
  have hText : phrase.text.toList = c :: (cs ++ Script.layout (Phrase.morePieces phrase.more)) := by
    rw [Phrase.text, String.toList_ofList, Phrase.pieces, Script.layout_cons, Script.Piece.source,
      hSource, List.cons_append]
  rw [Bool.eq_false_iff]
  intro hEmpty
  rw [String.isEmpty_iff] at hEmpty
  rw [hEmpty] at hText
  cases hText

namespace Param

/-- What is read where no slot is declared is normal, and can be read again. -/
theorem sniff_normal {phrase : Phrase} (hForm : phrase.WellFormed) :
    (sniff phrase.arg).normal = sniff phrase.arg ∧
      (sniffFault? phrase.arg = none → (sniff phrase.arg).Readable) := by
  have hBare (hSniff : sniff phrase.arg = .text phrase.text true) :
      (sniff phrase.arg).normal = sniff phrase.arg ∧
        (sniffFault? phrase.arg = none → (sniff phrase.arg).Readable) := by
    rw [hSniff, normal, Readable, hForm.text_isEmpty]
    exact ⟨rfl, fun _ => ⟨phrase, hForm, rfl, hSniff⟩⟩
  rcases hForm.arg_cases with ⟨text, hArg, hText⟩ | hArg | hArg
  · rw [hArg]
    exact ⟨rfl, fun _ => hText⟩
  · by_cases hLiteral : Integer.isLiteral phrase.text.toList = true
    · rw [hArg, sniff, if_pos hLiteral]
      rw [sniffFault?, if_pos hLiteral]
      exact ⟨rfl, fun hFits => Integer.fits_leadingD hFits Integer.fits_zero⟩
    · exact hBare (by rw [hArg, sniff, if_neg hLiteral])
  · exact hBare (by rw [hArg]; rfl)

/-- A parameter made for a slot is in normal form for it. -/
theorem coerce_normalIn (arg : Arg) (type : Schema.SlotType) :
    (coerce arg type).normalIn type = coerce arg type := by
  cases type with
  | string => rfl
  | integer => cases arg <;> rfl

/-- Parameters made of arguments are in normal form, so reading them once more gives them back. -/
theorem normalList_ofArgs {args : List Arg}
    (hArgs : ∀ arg ∈ args, ∃ phrase : Phrase, phrase.WellFormed ∧ phrase.arg = arg)
    (slots : List Schema.Slot) : normalList (ofArgs args slots) slots = ofArgs args slots := by
  fun_induction ofArgs args slots with
  | case1 => rfl
  | case2 arg args ih =>
      obtain ⟨hArg, hRest⟩ := List.forall_mem_cons.1 hArgs
      obtain ⟨phrase, hForm, rfl⟩ := hArg
      rw [normalList, (sniff_normal hForm).1, ih hRest]
  | case3 arg args slot slots ih =>
      rw [normalList, coerce_normalIn, ih (List.forall_mem_cons.1 hArgs).2]

/-- Parameters made of arguments can be read again if no slot for text meets a quote. The digits
were within the limit when the script was read. -/
theorem readableList_ofArgs {args : List Arg}
    (hArgs : ∀ arg ∈ args, ∃ phrase : Phrase, phrase.WellFormed ∧ phrase.arg = arg)
    {slots : List Schema.Slot} (hFits : argsFault? args slots = none)
    (hFree : QuoteFree (ofArgs args slots) slots)
    (hLines : ∀ text ∈ (ofArgs args slots).flatMap strings, OneLine text) :
    ReadableList (ofArgs args slots) slots := by
  fun_induction ofArgs args slots with
  | case1 => trivial
  | case2 arg args ih =>
      obtain ⟨hArg, hRest⟩ := List.forall_mem_cons.1 hArgs
      obtain ⟨phrase, hForm, rfl⟩ := hArg
      rw [List.flatMap_cons, List.forall_mem_append] at hLines
      rw [argsFault?, Option.or_eq_none_iff] at hFits
      exact ⟨(sniff_normal hForm).2 hFits.1, ih hRest hFits.2 (by simp [QuoteFree]) hLines.2⟩
  | case3 arg args slot slots ih =>
      rw [QuoteFree, List.zip_cons_cons, List.forall_mem_cons] at hFree
      rw [List.flatMap_cons, List.forall_mem_append] at hLines
      rw [argsFault?, Option.or_eq_none_iff] at hFits
      refine ⟨?_, ih (List.forall_mem_cons.1 hArgs).2 hFits.2 hFree.2 hLines.2⟩
      cases hType : slot.type with
      | integer => exact printInFault?_coerce (hType ▸ hFits.1)
      | string =>
          rw [hType] at hFree hLines
          exact quotable_iff.2 ⟨hFree.1 rfl, hLines.1 arg.text (by simp [coerce, quoted, strings])⟩

/-- The value of an attribute that was read is one token again. -/
theorem sniff_readableAlone {symbol : Symbol} (hForm : symbol.WellFormed)
    (hArgument : symbol.isArgument = true) (hFits : sniffFault? (⟨symbol, []⟩ : Phrase).arg = none) :
    (sniff (⟨symbol, []⟩ : Phrase).arg).ReadableAlone := by
  have hPhrase : (⟨symbol, []⟩ : Phrase).WellFormed := ⟨hForm, hArgument, trivial⟩
  have hSource := Phrase.text_single symbol
  obtain ⟨hNormal, _⟩ := sniff_normal hPhrase
  have hBare (hSniff : sniff (⟨symbol, []⟩ : Phrase).arg =
      .text (⟨symbol, []⟩ : Phrase).text true) :
      (sniff (⟨symbol, []⟩ : Phrase).arg).ReadableAlone := by
    refine ⟨symbol, hForm, hArgument, ?_, hNormal.symm, hFits⟩
    rw [hSniff, print, hPhrase.text_isEmpty, ← hSource]
    rfl
  rcases hPhrase.arg_cases with ⟨text, hArg, hText⟩ | hArg | hArg
  · rw [hArg]
    refine ⟨⟨.string, text⟩, ⟨hText, by simp⟩, rfl, ?_, rfl, rfl⟩
    simp [sniff, quoted, print, Symbol.source, inQuotes]
  · by_cases hLiteral : Integer.isLiteral (⟨symbol, []⟩ : Phrase).text.toList = true
    · rw [hArg, sniffFault?, if_pos hLiteral] at hFits
      have hInteger := Integer.fits_leadingD hFits Integer.fits_zero
      rw [hArg, sniff, if_pos hLiteral]
      exact ⟨⟨.number, _⟩, ⟨Integer.admits_toString _, by simp⟩, rfl, rfl, sniff_toString _,
        sniffFault?_toString_eq_none_iff.2 hInteger⟩
    · exact hBare (by rw [hArg, sniff, if_neg hLiteral])
  · exact hBare (by rw [hArg]; rfl)

end Param

/-! ### Quests that were read -/

variable {schema : Schema} {quest : Quest}

/-- A state from a script is its own normal form. -/
theorem State.Sourced.normal {state : State} (hState : state.Sourced schema) :
    state.normal schema = state := by
  have hActions : state.actions.map (Action.normal schema) = state.actions := by
    refine (List.map_congr_left fun action hMem => ?_).trans (List.map_id _)
    obtain ⟨call, hSound, -, rfl⟩ := hState.actions action hMem
    have hParams := Param.normalList_ofArgs hSound.2.2 (schema.actionSlots call.name.value)
    simp only [Action.normal, Draft.actionOf, Action.refresh, hParams, id_eq]
  have hRules : state.rules.map (Rule.normal schema) = state.rules := by
    refine (List.map_congr_left fun rule hMem => ?_).trans (List.map_id _)
    obtain ⟨call, goto, hSound, -, -, rfl⟩ := hState.rules rule hMem
    have hParams := Param.normalList_ofArgs hSound.2.2 (schema.ruleSlots call.name.value)
    simp only [Rule.normal, Draft.ruleOf, Rule.refresh, hParams, id_eq]
  rw [State.normal, hActions, hRules]

/-- A quest that was read is its own normal quest. -/
theorem Quest.Sourced.normal (hQuest : quest.Sourced schema)
    (hMain : ∀ main, quest.main = some main → main.name = "Main") :
    quest.normal schema = quest := by
  have hExtra : quest.extra.map (Option.map Param.normal) = quest.extra := by
    have hEntries : quest.extra.entries.map (fun entry => (entry.1, entry.2.map Param.normal)) =
        quest.extra.entries := by
      refine (List.map_congr_left fun entry hMem => ?_).trans (List.map_id _)
      obtain ⟨key, value, hSound, -, -, rfl⟩ := hQuest.extra entry hMem
      cases value with
      | none => rfl
      | some arg =>
          obtain ⟨symbol, hForm, hArgument, rfl⟩ := hSound.2 arg rfl
          have hNormal := (Param.sniff_normal (⟨hForm, hArgument, trivial⟩ :
            (⟨symbol, []⟩ : Phrase).WellFormed)).1
          simp only [Option.map_some, hNormal, id_eq]
    rw [Table.map]
    simp only [hEntries]
  obtain ⟨hMainSourced, hStatesSourced⟩ := Quest.forall_mem_blocks.1 hQuest.blocks
  have hStates : quest.states.map (State.normal schema) = quest.states :=
    (List.map_congr_left fun state hMem => (hStatesSourced state hMem).normal).trans (List.map_id _)
  have hMainBlock : (quest.main.map fun main => { main.normal schema with name := "Main" }) =
      quest.main := by
    cases hFound : quest.main with
    | none => rfl
    | some main =>
        have hBlock : main.Sourced schema := hMainSourced main hFound
        rw [Option.map_some, hBlock.normal, ← hMain main hFound]
  rw [Quest.normal, hExtra, hStates, hMainBlock]

/-- A state from a script is readable when no slot for text of its calls meets a quote. -/
theorem State.Sourced.readable {state : State} (hState : state.Sourced schema)
    (hCanonical : state.Canonical schema) (hFree : state.QuoteFree schema) :
    state.Readable schema := by
  have hTexts := hCanonical.oneLine
  refine ⟨hState.description, ?_, ?_⟩
  · intro action hMem
    have hLines : ∀ text ∈ action.params.flatMap Param.strings, OneLine text := by
      intro text hText
      refine hTexts text ?_
      simp only [State.strings, List.mem_cons, List.mem_append, List.mem_flatMap]
      refine Or.inr (Or.inr (Or.inl ⟨action, hMem, ?_⟩))
      exact List.mem_cons_of_mem _ (List.mem_cons_of_mem _ hText)
    have hParams := hFree.1 action hMem
    have hAllowed := (hCanonical.actions action hMem).allowed
    obtain ⟨call, hSound, hFits, rfl⟩ := hState.actions action hMem
    exact ⟨hSound.1, Param.readableList_ofArgs hSound.2.2 hFits hParams hLines, hAllowed⟩
  · intro rule hMem
    have hLines : ∀ text ∈ rule.params.flatMap Param.strings, OneLine text := by
      intro text hText
      refine hTexts text ?_
      simp only [State.strings, List.mem_cons, List.mem_append, List.mem_flatMap]
      refine Or.inr (Or.inr (Or.inr ⟨rule, hMem, ?_⟩))
      exact List.mem_cons_of_mem _ (List.mem_cons_of_mem _ (List.mem_cons_of_mem _ hText))
    have hParams := hFree.2 rule hMem
    obtain ⟨call, goto, hSound, hGoto, hFits, rfl⟩ := hState.rules rule hMem
    exact ⟨hSound.1, Param.readableList_ofArgs hSound.2.2 hFits hParams hLines,
      hSound.2.1 goto hGoto⟩

/-- A quest that was read can be read again, part by part, if no text in a string slot has a quote. -/
theorem Quest.Sourced.readable (hQuest : quest.Sourced schema) (hCanonical : quest.Canonical schema)
    (hFree : ∀ block ∈ quest.blocks, block.QuoteFree schema) : quest.Readable schema where
  name := hQuest.name
  version := hQuest.version
  gates := hQuest.gates
  extra := by
    intro entry hMem
    obtain ⟨key, value, hSound, hUnknown, hFits, rfl⟩ := hQuest.extra entry hMem
    refine ⟨hSound.1, hUnknown, ?_⟩
    intro param hParam
    obtain ⟨arg, rfl, rfl⟩ := Option.map_eq_some_iff.1 hParam
    obtain ⟨symbol, hForm, hArgument, rfl⟩ := hSound.2 arg rfl
    rw [Draft.attributeFault?, hUnknown] at hFits
    exact Param.sniff_readableAlone hForm hArgument hFits
  blocks := fun block hMem =>
    (hQuest.blocks block hMem).readable (hCanonical.blocks block hMem) (hFree block hMem)
  stateTexts := hQuest.stateTexts
  stateNames := hCanonical.stateNames
  random := by
    intro block hMem
    obtain ⟨hName, hTargets⟩ := hQuest.random block hMem
    refine ⟨hName, fun target hTarget => (hTargets target hTarget).1, fun target hTarget => ?_⟩
    obtain ⟨-, weight, hWeight, hFits⟩ := hTargets target hTarget
    obtain ⟨other, hOther, hSign⟩ := (hCanonical.random block hMem).weights target hTarget
    cases hWeight.symm.trans hOther
    exact ⟨weight, hWeight, hFits, hSign⟩
  randomNames := hCanonical.randomNames

end QuestScript

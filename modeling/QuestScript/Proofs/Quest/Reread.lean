import QuestScript.Proofs.Quest.LooseKeys
import QuestScript.Proofs.Quest.Quoting
import QuestScript.Proofs.Quest.Same
import QuestScript.Proofs.Quest.Writing
/-!
Reading again what was written. The script of a quest that was read from a script gives the same quest
again, and the same text, exactly where three things hold: no text in a string slot has a quote, no
bare key that is a word of a block stands before anything else, and no call runs into the next one.
-/

namespace QuestScript

open Script (Arg Call Event Phrase Position Token behindParens tokensFrom)

/-! ### Lists in order -/

section Ordered

variable {α : Type} [LinearOrder α] {xs ys : List α}

/-- Where values only grow, no fewer of them lie above a bound. -/
theorem countP_le_of_forall₂ (hLe : List.Forall₂ (· ≤ ·) xs ys) (bound : α) :
    xs.countP (bound < ·) ≤ ys.countP (bound < ·) := by
  induction hLe with
  | nil => exact Nat.le_refl _
  | @cons x y xs ys hHead rest ih =>
      by_cases hBound : bound < x
      · rw [List.countP_cons, List.countP_cons]
        simpa [hBound, hBound.trans_le hHead] using ih
      · rw [List.countP_cons_of_neg (by simpa using hBound), List.countP_cons]
        exact ih.trans (Nat.le_add_right _ _)

/-- Lists that rise item by item are equal, or some bound has more items above it in the second
one. -/
theorem eq_or_countP_lt_of_forall₂ (hLe : List.Forall₂ (· ≤ ·) xs ys) :
    xs = ys ∨ ∃ bound, xs.countP (bound < ·) < ys.countP (bound < ·) := by
  induction hLe with
  | nil => exact Or.inl rfl
  | @cons x y xs ys hHead rest ih =>
      rcases hHead.lt_or_eq with hLess | rfl
      · have hMore := countP_le_of_forall₂ rest x
        refine Or.inr ⟨x, ?_⟩
        rw [List.countP_cons_of_neg (by simp), List.countP_cons_of_pos (by simpa using hLess)]
        omega
      · rcases ih with rfl | ⟨bound, hMore⟩
        · exact Or.inl rfl
        · refine Or.inr ⟨bound, ?_⟩
          rw [List.countP_cons, List.countP_cons]
          omega

/-- Lists of the same items that rise item by item are equal. -/
theorem eq_of_forall₂_le_of_perm (hLe : List.Forall₂ (· ≤ ·) xs ys) (hPerm : xs.Perm ys) :
    xs = ys := by
  rcases eq_or_countP_lt_of_forall₂ hLe with hEq | ⟨bound, hMore⟩
  · exact hEq
  · exact absurd (hPerm.countP_eq _) hMore.ne

end Ordered

/-- Two lists that go with a third one item by item go with each other. -/
theorem forall₂_of_common {α β γ : Type} {first : α → γ → Prop} {second : β → γ → Prop}
    {relation : α → β → Prop} {xs : List α} {ys : List β} {zs : List γ}
    (hFirst : List.Forall₂ first xs zs) (hSecond : List.Forall₂ second ys zs)
    (hRelation : ∀ x ∈ xs, ∀ y z, first x z → second y z → relation x y) :
    List.Forall₂ relation xs ys := by
  induction hFirst generalizing ys with
  | nil =>
      cases hSecond
      exact List.Forall₂.nil
  | @cons x z xs zs hHead rest ih =>
      obtain ⟨hItem, hItems⟩ := List.forall_mem_cons.1 hRelation
      cases hSecond with
      | cons hOther others => exact List.Forall₂.cons (hItem _ z hHead hOther) (ih others hItems)

theorem forall_of_forall₂ {α β γ : Type} {f : α → γ} {g : β → γ} {property : α → Prop}
    {xs : List α} {ys : List β}
    (hItems : List.Forall₂ (fun x y => f x = g y → property x) xs ys) (hEqual : xs.map f = ys.map g) :
    ∀ x ∈ xs, property x := by
  induction hItems with
  | nil => exact fun _ hMem => absurd hMem List.not_mem_nil
  | cons hHead rest ih =>
      rw [List.map_cons, List.map_cons, List.cons.injEq] at hEqual
      exact List.forall_mem_cons.2 ⟨hHead hEqual.1, ih hEqual.2⟩

/-! ### Calls with quotes -/

variable {schema : Schema} {quest again : Quest}

/-- Every call of a quest that was read comes from a call of its script. -/
theorem Quest.Sourced.statements (hQuest : quest.Sourced schema)
    (hCanonical : quest.Canonical schema) :
    ∀ statement ∈ quest.toStatements, statement.Sourced schema := by
  intro statement hMem
  obtain ⟨block, hBlock, hStatement⟩ := List.mem_flatMap.1 hMem
  have hSourced := hQuest.blocks block hBlock
  have hTexts := (hCanonical.blocks block hBlock).oneLine
  simp only [State.strings, List.mem_cons, List.mem_append, List.mem_flatMap] at hTexts
  rcases List.mem_append.1 hStatement with hMem | hMem
  · obtain ⟨action, hAction, rfl⟩ := List.mem_map.1 hMem
    obtain ⟨call, hSound, _, hMade⟩ := hSourced.actions action hAction
    refine ⟨call.args, hSound.2.2, by rw [hMade]; rfl, fun text hText => ?_⟩
    refine hTexts text (Or.inr (Or.inr (Or.inl ⟨action, hAction, ?_⟩)))
    exact List.mem_cons_of_mem _ (List.mem_cons_of_mem _ hText)
  · obtain ⟨rule, hRule, rfl⟩ := List.mem_map.1 hMem
    obtain ⟨call, goto, hSound, _, _, hMade⟩ := hSourced.rules rule hRule
    refine ⟨call.args, hSound.2.2, by rw [hMade]; rfl, fun text hText => ?_⟩
    refine hTexts text (Or.inr (Or.inr (Or.inr ⟨rule, hRule, ?_⟩)))
    exact List.mem_cons_of_mem _ (List.mem_cons_of_mem _ (List.mem_cons_of_mem _ hText))

theorem Param.ranks_content (params : List Param) : ranks (params.map content) = ranks params := by
  rw [ranks, ranks, List.map_map]
  refine List.map_congr_left fun param _ => ?_
  cases param <;> rfl

/-- Ranks look at the texts of parameters. The kept spelling has no part in them. -/
theorem State.ranks_content (state : State) :
    state.content.toStatements.map Statement.ranks = state.toStatements.map Statement.ranks := by
  rw [State.toStatements, State.toStatements, List.map_append, List.map_append]
  simp only [State.content, List.map_map]
  congr 1
  · exact List.map_congr_left fun action _ => Param.ranks_content action.params
  · exact List.map_congr_left fun rule _ => Param.ranks_content rule.params

/-- Quests that are equal have the same ranks. -/
theorem Quest.ranks_of_same (hSame : again.same quest = true) :
    again.toStatements.map Statement.ranks = quest.toStatements.map Statement.ranks := by
  simp only [Quest.same, Bool.and_eq_true, beq_iff_eq] at hSame
  have hBlocks : again.blocks.map State.content = quest.blocks.map State.content := by
    rw [Quest.blocks, Quest.blocks, List.map_append, List.map_append, ← Option.toList_map,
      ← Option.toList_map, hSame.1.1.2, hSame.1.2]
  have hRanks := congrArg (List.flatMap fun state => state.toStatements.map Statement.ranks) hBlocks
  simp only [List.flatMap_map, State.ranks_content] at hRanks
  rw [Quest.toStatements, Quest.toStatements, List.map_flatMap, List.map_flatMap]
  exact hRanks

/-- A quest that is read again as an equal quest has no quote in a string slot. -/
theorem Quest.Sourced.quoteFree_of_same (hQuest : quest.Sourced schema)
    (hCanonical : quest.Canonical schema) {pad : String} (hPad : IsPad pad) {id : Number}
    {warnings : List Warning}
    (hParse : Quest.parse schema id (quest.print schema pad) = .ok (again, warnings))
    (hSame : again.same quest = true) : ∀ block ∈ quest.blocks, block.QuoteFree schema := by
  obtain ⟨tokens, events, current, hTokens, hOutline, run⟩ := Quest.parse_ok_iff.1 ⟨_, hParse⟩
  have spelled := Script.outlineFrom_spelled (Script.tokenize_complete hTokens) hOutline
  have hRead := spelled.readFrom
  have hPerm := run.toStatements_perm spelled
  have hRanks := Quest.ranks_of_same hSame
  obtain ⟨opened, hOpened, hWritten⟩ := hQuest.opens hCanonical hPad _ tokens hTokens
  -- Every parenthesis is one of those that the lines of the calls open.
  have hAll : opened = behindParens tokens := by
    apply hOpened.eq_of_length
    have hCount := congrArg List.length hRanks
    have hCalls := hPerm.length_eq
    simp only [List.length_map] at hCount hCalls
    rw [← hWritten.length_eq, ← hCount, hCalls, hRead.length_eq]
  rw [hAll] at hWritten
  have hPaired := forall₂_of_common hWritten hRead fun statement hMem call tokens hStatement hCall =>
    (hQuest.statements hCanonical statement hMem).ranks_le hStatement hCall
  have hRise : List.Forall₂ (· ≤ ·) (quest.toStatements.map Statement.ranks)
      ((events.filterMap Event.call?).map fun call => (call.toStatement schema).ranks) := by
    rw [List.forall₂_map_left_iff, List.forall₂_map_right_iff]
    exact hPaired.imp fun _ _ hRelated => hRelated.1
  have hSameRanks : (quest.toStatements.map Statement.ranks).Perm
      ((events.filterMap Event.call?).map fun call => (call.toStatement schema).ranks) := by
    have hMapped := hPerm.map Statement.ranks
    rwa [hRanks, List.map_map] at hMapped
  -- The ranks rise call by call but are the same as a whole, so none of them rises.
  have hEqual := eq_of_forall₂_le_of_perm hRise hSameRanks
  have hFree : ∀ statement ∈ quest.toStatements, statement.QuoteFree schema :=
    forall_of_forall₂ (hPaired.imp fun _ _ hRelated => hRelated.2) hEqual
  intro block hBlock
  have hStatements : ∀ statement ∈ block.toStatements, statement.QuoteFree schema :=
    fun statement hMem => hFree statement (List.mem_flatMap.2 ⟨block, hBlock, hMem⟩)
  constructor
  · intro action hMem
    exact hStatements (.action action) (List.mem_append_left _ (List.mem_map.2 ⟨action, hMem, rfl⟩))
  · intro rule hMem
    exact hStatements (.rule rule) (List.mem_append_right _ (List.mem_map.2 ⟨rule, hMem, rfl⟩))

/-! ### The round trip -/

theorem Takes.id_eq {quest' : Quest} {current current' : Option OpenBlock} {event : Event}
    (takes : Takes schema quest current event quest' current') : quest'.id = quest.id := by
  cases takes with
  | known hKey => exact (Draft.setAttribute_frame quest _ _).2.2.2.2
  | _ => rfl

/-- The number of a quest is given from outside and stays through the whole script. -/
theorem Run.id_eq {quest' : Quest} {current current' : Option OpenBlock} {events : List Event}
    (run : Run schema quest current events quest' current') : quest'.id = quest.id := by
  induction run with
  | nil => rfl
  | cons first rest ih => exact ih.trans first.id_eq

/-- A quest that lacks the main block of another one is not equal to it. -/
theorem Quest.same_eq_false (hAgain : again.main = none) (hMain : quest.main ≠ none) :
    again.same quest = false := by
  obtain ⟨main, hMain⟩ := Option.ne_none_iff_exists'.1 hMain
  simp [Quest.same, hAgain, hMain]

/-- A quest that survives is read from its own script. -/
theorem Quest.Survives.rereads (hSurvives : quest.Survives schema) (hQuest : quest.Sourced schema)
    (hCanonical : quest.Canonical schema) {pad : String} (hPad : IsPad pad) :
    ∃ warnings, Quest.parse schema quest.id (quest.print schema pad) = .ok (quest, warnings) := by
  have hReadable := hQuest.readable hCanonical hSurvives.quoteFree
  have hText := hReadable.resumeText_print hPad hSurvives.looseKeysLast hSurvives.seamFree
  rw [hQuest.normal hCanonical.mainName] at hText
  exact Quest.parse_iff_resumeText.2 hText

/-- A quest that is read again as an equal quest survives. -/
theorem Quest.Sourced.survives (hQuest : quest.Sourced schema) (hCanonical : quest.Canonical schema)
    {pad : String} (hPad : IsPad pad) {warnings : List Warning}
    (hParse : Quest.parse schema quest.id (quest.print schema pad) = .ok (again, warnings))
    (hSame : again.same quest = true) : quest.Survives schema := by
  have hFree := hQuest.quoteFree_of_same hCanonical hPad hParse hSame
  have hReadable := hQuest.readable hCanonical hFree
  have hText := Quest.parse_iff_resumeText.1 ⟨_, hParse⟩
  have hLoose : quest.LooseKeysLast := by
    by_contra hLoose
    obtain ⟨hLost, hMain⟩ := hReadable.main_of_looseKey hPad hLoose hText
    rw [Quest.same_eq_false hLost hMain] at hSame
    cases hSame
  refine ⟨hFree, hLoose, ?_⟩
  by_contra hSeams
  rw [hReadable.resumeText_print_eq_none hPad hLoose hSeams] at hText
  cases hText

/-- A quest that was read from a script is written as one. That is read as an equal quest with the same
script exactly if the quest survives: if no text in a string slot has a quote, no bare key that is a
word of a block stands before anything else, and no call runs into the next one. -/
theorem Quest.parse_print_iff_survives {id : Number} {text : String} {warnings : List Warning}
    {indent : Int} {pad : String} (hParse : Quest.parse schema id text = .ok (quest, warnings))
    (hPad : padding indent = .ok pad) :
    ∃ script, quest.write schema pad = .ok script ∧
      ((∃ again warnings', Quest.parse schema id script = .ok (again, warnings') ∧
        again.same quest = true ∧ again.write schema pad = .ok script) ↔
        quest.Survives schema) := by
  have hWrite := Quest.write_of_parse hParse pad
  refine ⟨_, hWrite, ?_⟩
  have hSourced := Quest.parse_sourced hParse
  obtain ⟨tokens, events, current, hTokens, hOutline, run⟩ := Quest.parse_ok_iff.1 ⟨_, hParse⟩
  have hCanonical := run.canonical hTokens hOutline
  have hId : quest.id = id := run.id_eq
  have hBlanks := IsPad.of_padding hPad
  subst hId
  constructor
  · rintro ⟨again, warnings', hAgain, hSame, _⟩
    exact hSourced.survives hCanonical hBlanks hAgain hSame
  · intro hSurvives
    obtain ⟨warnings', hAgain⟩ := hSurvives.rereads hSourced hCanonical hBlanks
    exact ⟨quest, warnings', hAgain, quest.same_refl, hWrite⟩

/-- A quest with a quote in a bare argument of a call, which is read and written without loss as
long as no slot for text meets it. -/
theorem Quest.parse_print_iff_survives_sample :
    let quest : Quest :=
      { Quest.blank 7 with
        extra := Table.empty.put "note" none
        main := some ⟨"Main", "", [⟨"Say", [.text "a\"b\"c" true, .int 2], "Say(a\"b\"c, 2);"⟩], []⟩
        states := [⟨"A", "first", [], [⟨"Done", [], "A", "Done() goto A"⟩]⟩] }
    let text := "note; main \x7b Say(a\"b\"c, 02) \x7d state A \x7b desc \"first\" Done() goto \"A\" \x7d"
    (∃ warnings, Quest.parse Schema.empty 7 text = .ok (quest, warnings)) ∧
      padding 2 = .ok "  " ∧ quest.Survives Schema.empty ∧
      ∃ script, quest.write Schema.empty "  " = .ok script ∧
        ∃ again warnings', Quest.parse Schema.empty 7 script = .ok (again, warnings') ∧
          again.same quest = true ∧ again.write Schema.empty "  " = .ok script := by
  intro quest text
  have hParse : Quest.parse Schema.empty 7 text = .ok (quest,
      [.unknownAttribute 1 "note", .unknownAction 1 "Say", .unknownRule 1 "Done"]) := by
    decide +kernel
  have hPad : padding 2 = .ok "  " := by decide +kernel
  have hSurvives : quest.Survives Schema.empty := by decide +kernel
  obtain ⟨script, hWrite, hAgain⟩ := Quest.parse_print_iff_survives hParse hPad
  exact ⟨⟨_, hParse⟩, hPad, hSurvives, script, hWrite, hAgain.2 hSurvives⟩

/-- Tokens that were joined to a text with quotes are not read again. -/
example :
    let schema : Schema :=
      ⟨Table.empty.put "Say" ⟨"Say", "Say(\"text\");", "", [⟨"text", .string⟩]⟩, Table.empty⟩
    (Quest.parse schema 7 "state A \x7b Say(a\"b\"c) \x7d").toOption.map
      (fun result => (result.1.reread schema "  ").toOption) = some (some ⟨false, false⟩) := by
  decide +kernel

/-- A bare key takes the word of the main block for a name. -/
example : (Quest.parse Schema.empty 7 "state; main \x7b \x7d").toOption.map
    (fun result => (result.1.reread Schema.empty "  ").toOption) = some (some ⟨false, false⟩) := by
  decide +kernel

end QuestScript

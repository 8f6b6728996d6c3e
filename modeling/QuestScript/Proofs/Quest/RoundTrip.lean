import QuestScript.Proofs.Quest.AttributeLines
import QuestScript.Proofs.Quest.BlockLines
import QuestScript.Quest.Export
/-!
Round trips: what comes back when the script of a quest is read again. A readable quest comes back as
its normal quest exactly where no call of a block runs into the next one.
-/

namespace QuestScript

open Script (Kind)

variable {schema : Schema} {pad : String} {quest : Quest}

theorem IsPad.of_padding {indent : Int} (hPad : padding indent = .ok pad) : IsPad pad := by
  unfold padding at hPad
  split at hPad
  · cases hPad
    intro c hMem
    rw [String.toList_ofList] at hMem
    exact List.eq_of_mem_replicate hMem
  · cases hPad

/-! ### Sections -/

/-- The text of sections, each behind a blank line. -/
def sectionText (sections : List String) : List Char :=
  sections.flatMap fun text => '\n' :: (text.toList ++ ['\n'])

theorem sectionText_cons (text : String) (sections : List String) :
    sectionText (text :: sections) = ['\n'] ++ (text.toList ++ '\n' :: sectionText sections) := by
  simp [sectionText]

theorem sectionText_append (left right : List String) :
    sectionText (left ++ right) = sectionText left ++ sectionText right := List.flatMap_append

/-- Sections are separated by blank lines, and each of them ends with a line feed. -/
theorem intercalate_blankLine (first : String) (sections : List String) :
    ("\n\n".intercalate (first :: sections) ++ "\n").toList =
      first.toList ++ '\n' :: sectionText sections := by
  induction sections generalizing first with
  | nil => simp [sectionText]
  | cons next sections ih =>
      have hNext := ih next
      rw [String.toList_append] at hNext ⊢
      rw [String.intercalate_cons_of_ne_nil (by simp), String.toList_append, String.toList_append,
        List.append_assoc, List.append_assoc, hNext, sectionText_cons]
      rfl

/-- The sections behind the attributes: main block, states, random blocks. -/
def Quest.blockSections (schema : Schema) (pad : String) (quest : Quest) : List String :=
  quest.main.toList.map (State.printMain schema pad) ++
    (quest.states.map (State.print schema pad) ++ quest.random.map (RandomBlock.print pad))

/-- The printed quest is its attributes, line by line, and then its sections. -/
theorem Quest.toList_print (schema : Schema) (pad : String) (quest : Quest) :
    (quest.print schema pad).toList =
      textOf quest.attributeLines ++ sectionText (quest.blockSections schema pad) := by
  have hLines : quest.attributeLines ≠ [] := by simp [Quest.attributeLines]
  rw [Quest.print, Quest.sections, List.append_assoc, List.append_assoc, List.singleton_append,
    intercalate_blankLine, joinLines_lineFeed hLines]
  rfl

theorem beginsWithKey_word {key : String} (hKey : IsIdentifier key) (text : String) :
    BeginsWithKey (key ++ " " ++ text) :=
  ⟨key, ' ' :: text.toList, by simp, hKey, fun _ => delimited_space _⟩

/-- A printed block begins a line, so no line before it runs into it. -/
theorem meets_block {header : String} (hHeader : BeginsWithKey (header ++ " \x7b"))
    (lines : List String) (rest : List Char) :
    Meets ((printBlock header lines).toList ++ '\n' :: rest) BeginsLine := by
  rw [textOf_printBlock]
  exact hHeader.meets _

/-- Every section begins with a word. -/
theorem meets_blockSections (schema : Schema) (pad : String) (quest : Quest) :
    Meets (sectionText (quest.blockSections schema pad)) BeginsLine := by
  have hMain : BeginsWithKey ("Main" ++ " \x7b") :=
    ⟨"Main", " \x7b".toList, rfl, by decide, fun _ => delimited_space _⟩
  have hState (name : String) : BeginsWithKey ("State " ++ inQuotes name ++ " \x7b") := by
    have hKey : IsIdentifier "State" := by decide
    have hLine := beginsWithKey_word hKey (inQuotes name ++ " \x7b")
    rwa [← String.append_assoc] at hLine
  have hRandom (name : String) : BeginsWithKey ("random " ++ inQuotes name ++ " \x7b") := by
    have hKey : IsIdentifier "random" := by decide
    have hLine := beginsWithKey_word hKey (inQuotes name ++ " \x7b")
    rwa [← String.append_assoc] at hLine
  have hSections : ∀ text ∈ quest.blockSections schema pad, ∀ rest,
      Meets (text.toList ++ '\n' :: rest) BeginsLine := by
    intro text hMem rest
    simp only [Quest.blockSections, List.mem_append, List.mem_map] at hMem
    rcases hMem with ⟨main, _, rfl⟩ | ⟨state, _, rfl⟩ | ⟨block, _, rfl⟩
    · exact meets_block hMain _ rest
    · exact meets_block (hState state.name) _ rest
    · exact meets_block (hRandom block.name) _ rest
  cases hFirst : quest.blockSections schema pad with
  | nil => exact Meets.nil (Or.inr rfl)
  | cons text sections =>
      rw [sectionText_cons]
      exact Meets.gaps lineEnd_gaps (hSections text (by simp [hFirst]) _)

/-- Reading a section and then the others is reading them all. -/
theorem Leads.section {stage stage' : Stage} {text : String} {sections : List String}
    {rest rest' : List Char}
    (first : Leads schema stage (text.toList ++ '\n' :: (sectionText sections ++ rest)) stage'
      (sectionText sections ++ rest))
    {stage'' : Stage} (more : Leads schema stage' (sectionText sections ++ rest) stage'' rest') :
    Leads schema stage (sectionText (text :: sections) ++ rest) stage'' rest' := by
  rw [sectionText_cons, List.append_assoc, List.append_assoc]
  exact (Leads.gaps lineEnd_gaps).trans (first.trans more)

/-! ### Blocks -/

/-- No call of a quest runs into the next one of its block. -/
def Quest.SeamFree (schema : Schema) (quest : Quest) : Prop :=
  ∀ block ∈ quest.blocks, QuestScript.SeamFree schema block.toStatements

instance (schema : Schema) (quest : Quest) : Decidable (quest.SeamFree schema) :=
  inferInstanceAs (Decidable (∀ _ ∈ _, _))

/-- The section of the main block is read as the block that comes back. -/
theorem Leads.main {main : Option State} (hReadable : ∀ block ∈ main, block.Readable schema)
    (hPad : IsPad pad) (hSeams : ∀ block ∈ main, SeamFree schema block.toStatements)
    (rest : List Char) :
    Leads schema (.top { quest with main := none })
      (sectionText (main.toList.map (State.printMain schema pad)) ++ rest)
      (.top { quest with main := main.map fun block => { block.normal schema with name := "Main" } })
      rest := by
  cases main with
  | none => exact Leads.refl
  | some block =>
      exact Leads.section ((hReadable block rfl).leads_main hPad rfl (hSeams block rfl) _)
        Leads.refl

/-- The sections of states are read as the states that come back. -/
theorem Leads.states {states : List State} (hReadable : ∀ state ∈ states, state.Readable schema)
    (hPad : IsPad pad) (hTexts : ∀ state ∈ states, Quotable state.name)
    (hNames : (quest.stateNames ++ states.map State.name).Nodup)
    (hSeams : ∀ state ∈ states, SeamFree schema state.toStatements) (rest : List Char) :
    Leads schema (.top quest) (sectionText (states.map (State.print schema pad)) ++ rest)
      (.top { quest with states := quest.states ++ states.map (State.normal schema) }) rest := by
  induction states generalizing quest with
  | nil =>
      rw [List.map_nil, List.map_nil, List.append_nil]
      exact Leads.refl
  | cons state states ih =>
      have hFresh : state.name ∉ quest.stateNames := notMem_of_nodup_append hNames
      have hFirst := (hReadable state (by simp)).leads_state hPad (hTexts state (by simp)) hFresh
        (hSeams state (by simp)) (sectionText (states.map (State.print schema pad)) ++ rest)
      refine Leads.section hFirst ?_
      let longer : Quest := { quest with states := quest.states ++ [state.normal schema] }
      have hLonger : (longer.stateNames ++ states.map State.name).Nodup := by
        simpa [longer, Quest.stateNames, State.normal] using hNames
      have hRest := ih (fun other hMem => hReadable other (List.mem_cons_of_mem state hMem))
        (fun other hMem => hTexts other (List.mem_cons_of_mem state hMem)) hLonger
        (fun other hMem => hSeams other (List.mem_cons_of_mem state hMem))
      simpa [longer] using hRest

/-- A state with a call that runs into the next one is not read, nor is what comes after it. -/
theorem Fails.states {states : List State} (hReadable : ∀ state ∈ states, state.Readable schema)
    (hPad : IsPad pad) (hTexts : ∀ state ∈ states, Quotable state.name)
    (hNames : (quest.stateNames ++ states.map State.name).Nodup)
    (hSeams : ¬∀ state ∈ states, SeamFree schema state.toStatements) (rest : List Char) :
    Fails schema (.top quest) (sectionText (states.map (State.print schema pad)) ++ rest) := by
  induction states generalizing quest with
  | nil => exact absurd (by simp) hSeams
  | cons state states ih =>
      have hFresh : state.name ∉ quest.stateNames := notMem_of_nodup_append hNames
      have hState := hReadable state (by simp)
      have hName := hTexts state (by simp)
      rw [List.map_cons, sectionText_cons, List.append_assoc, List.append_assoc]
      refine (Leads.gaps lineEnd_gaps).fails ?_
      by_cases hFirst : SeamFree schema state.toStatements
      · let longer : Quest := { quest with states := quest.states ++ [state.normal schema] }
        have hLonger : (longer.stateNames ++ states.map State.name).Nodup := by
          simpa [longer, Quest.stateNames, State.normal] using hNames
        have hMore : ¬∀ other ∈ states, SeamFree schema other.toStatements :=
          fun hMore => hSeams (List.forall_mem_cons.2 ⟨hFirst, hMore⟩)
        have hRest := ih (fun other hMem => hReadable other (List.mem_cons_of_mem state hMem))
          (fun other hMem => hTexts other (List.mem_cons_of_mem state hMem)) hLonger hMore
        exact (hState.leads_state hPad hName hFresh hFirst _).fails hRest
      · exact hState.fails_state hPad hName hFirst _

/-- The sections of random blocks are read as the blocks. -/
theorem Leads.random {blocks : List RandomBlock} (hReadable : ∀ block ∈ blocks, block.Readable)
    (hPad : IsPad pad)
    (hNames : (quest.random.map RandomBlock.name ++ blocks.map RandomBlock.name).Nodup)
    (rest : List Char) :
    Leads schema (.top quest) (sectionText (blocks.map (RandomBlock.print pad)) ++ rest)
      (.top { quest with random := quest.random ++ blocks }) rest := by
  induction blocks generalizing quest with
  | nil =>
      rw [List.append_nil]
      exact Leads.refl
  | cons block blocks ih =>
      have hFresh : block.name ∉ quest.random.map RandomBlock.name := notMem_of_nodup_append hNames
      let longer : Quest := { quest with random := quest.random ++ [block] }
      have hLonger :
          (longer.random.map RandomBlock.name ++ blocks.map RandomBlock.name).Nodup := by
        simpa [longer] using hNames
      have hRest := ih (fun other hMem => hReadable other (List.mem_cons_of_mem block hMem)) hLonger
      refine Leads.section ((hReadable block (by simp)).leads hPad hFresh _) ?_
      simpa [longer] using hRest

/-! ### Quests -/

/-- A loose key of a quest is the last word of its script. -/
def Quest.LooseKeysLast (quest : Quest) : Prop :=
  ∀ entry ∈ quest.extra.entries, isLooseKey entry = true →
    quest.extra.entries.getLast? = some entry ∧ quest.blocks = [] ∧ quest.random = []

instance (quest : Quest) : Decidable quest.LooseKeysLast :=
  inferInstanceAs (Decidable (∀ _ ∈ _, _ → _))

/-- For the printed quest the condition on loose keys is one on its other attributes: what stands
behind them are the sections. -/
theorem Quest.LooseKeysLast.entries (hLoose : quest.LooseKeysLast) (schema : Schema)
    (pad : String) :
    QuestScript.LooseKeysLast quest.extra.entries
      (sectionText (quest.blockSections schema pad)) := by
  intro entry hMem hEntry
  obtain ⟨hLast, hBlocks, hRandom⟩ := hLoose entry hMem hEntry
  obtain ⟨hMain, hStates⟩ := List.append_eq_nil_iff.1 hBlocks
  refine ⟨hLast, ?_⟩
  rw [Quest.blockSections, hMain, hStates, hRandom]
  exact Meets.nil rfl

theorem Quest.Readable.main (hQuest : quest.Readable schema) :
    ∀ block ∈ quest.main, block.Readable schema :=
  (Quest.forall_mem_blocks.1 hQuest.blocks).1

theorem Quest.Readable.states (hQuest : quest.Readable schema) :
    ∀ state ∈ quest.states, state.Readable schema :=
  (Quest.forall_mem_blocks.1 hQuest.blocks).2

/-- The script of a readable quest is read as its normal quest where no line runs into the next. -/
theorem Quest.Readable.resumeText_print (hQuest : quest.Readable schema) (hPad : IsPad pad)
    (hLoose : quest.LooseKeysLast) (hSeams : quest.SeamFree schema) :
    (Stage.top (Quest.blank quest.id)).resumeText schema .start (quest.print schema pad).toList =
      some (quest.normal schema) := by
  let attributes := (quest.normal schema).attributesOnly
  let opened : Quest := { attributes with main := (quest.normal schema).main }
  let walked : Quest := { opened with states := [] ++ quest.states.map (State.normal schema) }
  have hAttributes : Leads schema _ _ (.top attributes) _ :=
    hQuest.leads_attributes (meets_blockSections schema pad quest) (hLoose.entries schema pad)
  obtain ⟨hMainSeams, hStateSeams⟩ := Quest.forall_mem_blocks.1 hSeams
  have hMain : Leads schema (.top { attributes with main := none }) _ (.top opened) _ :=
    Leads.main hQuest.main hPad hMainSeams
      (sectionText (quest.states.map (State.print schema pad) ++
        quest.random.map (RandomBlock.print pad)))
  have hNames : (opened.stateNames ++ quest.states.map State.name).Nodup := hQuest.stateNames
  have hStates : Leads schema (.top opened) _ (.top walked) _ :=
    Leads.states hQuest.states hPad hQuest.stateTexts hNames hStateSeams
      (sectionText (quest.random.map (RandomBlock.print pad)))
  have hRandomNames :
      (walked.random.map RandomBlock.name ++ quest.random.map RandomBlock.name).Nodup :=
    hQuest.randomNames
  have hRandom : Leads schema (.top walked) _ (.top (quest.normal schema)) _ :=
    Leads.random hQuest.random hPad hRandomNames []
  rw [← sectionText_append] at hMain hStates
  rw [List.append_nil] at hRandom
  rw [Quest.toList_print]
  obtain ⟨position, hLeads⟩ := hAttributes.trans (hMain.trans (hStates.trans hRandom)) .start
  rw [hLeads]
  exact Stage.resumeText_gaps schema _ position (by simp)

/-- The script of a readable quest has a fault where a call runs into the next one. -/
theorem Quest.Readable.resumeText_print_eq_none (hQuest : quest.Readable schema) (hPad : IsPad pad)
    (hLoose : quest.LooseKeysLast) (hSeams : ¬quest.SeamFree schema) :
    (Stage.top (Quest.blank quest.id)).resumeText schema .start (quest.print schema pad).toList =
      none := by
  let attributes := (quest.normal schema).attributesOnly
  let opened : Quest := { attributes with main := (quest.normal schema).main }
  have hAttributes : Leads schema _ _ (.top attributes) _ :=
    hQuest.leads_attributes (meets_blockSections schema pad quest) (hLoose.entries schema pad)
  have hFails : Fails schema (.top attributes)
      (sectionText (quest.blockSections schema pad)) := by
    rw [Quest.blockSections, sectionText_append, sectionText_append]
    by_cases hMainSeams : ∀ block ∈ quest.main, QuestScript.SeamFree schema block.toStatements
    · have hStateSeams :
          ¬∀ state ∈ quest.states, QuestScript.SeamFree schema state.toStatements :=
        fun hStateSeams => hSeams (Quest.forall_mem_blocks.2 ⟨hMainSeams, hStateSeams⟩)
      have hMain : Leads schema (.top { attributes with main := none }) _ (.top opened) _ :=
        Leads.main hQuest.main hPad hMainSeams
          (sectionText (quest.states.map (State.print schema pad)) ++
            sectionText (quest.random.map (RandomBlock.print pad)))
      have hNames : (opened.stateNames ++ quest.states.map State.name).Nodup := hQuest.stateNames
      exact hMain.fails
        (Fails.states hQuest.states hPad hQuest.stateTexts hNames hStateSeams _)
    · cases hQuestMain : quest.main with
      | none => simp [hQuestMain] at hMainSeams
      | some main =>
          have hReadable : main.Readable schema := hQuest.main main hQuestMain
          have hFirst : ¬QuestScript.SeamFree schema main.toStatements := by
            simpa [hQuestMain] using hMainSeams
          rw [Option.toList_some, List.map_singleton, sectionText_cons, List.append_assoc,
            List.append_assoc]
          exact (Leads.gaps lineEnd_gaps).fails (hReadable.fails_main hPad rfl hFirst _)
  rw [Quest.toList_print]
  exact hAttributes.fails hFails .start

end QuestScript

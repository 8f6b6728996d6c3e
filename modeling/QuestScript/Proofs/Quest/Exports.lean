import QuestScript.Proofs.Quest.CachedText
import QuestScript.Quest.Export
/-!
Quests that are given out. Writing a quest goes along it and changes it on the way, and what it gives
out of a call is what the call has cached by then. Still no cached text from before gets out, neither
in a script, where each call is made anew on its own, nor in a document, where all are made anew
first: both are what the content of the quest is written as, and where a part of that cannot be
written nothing is given out at all.
-/

namespace QuestScript

open Along (Runs)

/-! ### What is given out -/

namespace Export

variable (schema : Schema) (pad : String)

/-- What is given out of an action is its text made anew. -/
theorem action_runs :
    Runs (action schema) (Action.fault? schema) (Action.print schema) (Action.refresh schema)
      (fun action left => left = action) :=
  have hRefresh := Refresh.action_runs schema
  { ok := fun hFault => by
      rw [Export.action, EStateM.run_bind, hRefresh.ok hFault]
      rfl
    error := fun hFault => by
      obtain ⟨left, hRun, hLeft⟩ := hRefresh.error hFault
      refine ⟨left, ?_, hLeft⟩
      rw [Export.action, EStateM.run_bind, hRun] }

/-- What is given out of a rule is its text made anew. -/
theorem rule_runs :
    Runs (rule schema) (Rule.fault? schema) (Rule.print schema) (Rule.refresh schema)
      (fun rule left => left = rule) :=
  have hRefresh := Refresh.rule_runs schema
  { ok := fun hFault => by
      rw [Export.rule, EStateM.run_bind, hRefresh.ok hFault]
      rfl
    error := fun hFault => by
      obtain ⟨left, hRun, hLeft⟩ := hRefresh.error hFault
      refine ⟨left, ?_, hLeft⟩
      rw [Export.rule, EStateM.run_bind, hRun] }

/-- The lines of a block hold the texts that were just made anew. -/
theorem bodyLines_runs :
    Runs (bodyLines schema pad) (State.fault? schema) (State.bodyLines schema pad)
      (State.refresh schema) (fun state left => left.uncached = state.uncached) := by
  have hActions := Along.actions_runs (action_runs schema)
  have hRules := Along.rules_runs (rule_runs schema)
  refine ((Runs.look fun state => hActions.bind
    (fun actions => hRules.bind_pure fun rules =>
      state.descLines pad ++ actions.map (pad ++ ·) ++ rules.map (pad ++ ·))
    fun _ => rfl).mono ?_).congr (fun _ => rfl) (fun state => ?_) fun _ => rfl
  · exact fun state left hLeft => hLeft.elim id fun hRules => hRules.trans state.uncached_refreshActions
  · simp only [State.bodyLines, List.map_map]
    rfl

/-- Giving out a state prints its calls anew, up to the first that cannot be written. -/
theorem state_runs :
    Runs (Export.state schema pad) (State.fault? schema) (State.print schema pad)
      (State.refresh schema) (fun state left => left.uncached = state.uncached) := by
  have hState (state : State) :
      Runs (bodyLines schema pad >>= fun lines =>
          pure (printBlock ("State " ++ inQuotes state.name) lines))
        (State.fault? schema)
        (fun other => printBlock ("State " ++ inQuotes state.name) (other.bodyLines schema pad))
        (State.refresh schema) (fun state left => left.uncached = state.uncached) :=
    (bodyLines_runs schema pad).bind_pure _
  exact (Runs.look hState).congr (fun _ => rfl) (fun _ => rfl) fun _ => rfl

/-- Giving out the main block does to it what giving out a state does, under a header of its own.
-/
theorem mainBlock_runs :
    Runs (mainBlock schema pad) (State.fault? schema) (State.printMain schema pad)
      (State.refresh schema) (fun state left => left.uncached = state.uncached) :=
  (bodyLines_runs schema pad).bind_pure (printBlock "Main")

/-! #### Scripts -/

/-- What is taken from a quest without a change to it. -/
theorem taken_runs {α : Type} {fault? : Quest → Option Integer.Oversize} {made : Quest → α} :
    Runs (get >>= fun quest => orStop (Integer.guarded (fault? quest) (made quest)))
      fault? made id (fun quest left => left = quest) where
  ok {quest} hFault := by
    rw [EStateM.run_bind, EStateM.run_get]
    dsimp only
    rw [hFault]
    rfl
  error {quest fault} hFault := by
    refine ⟨quest, ?_, rfl⟩
    rw [EStateM.run_bind, EStateM.run_get]
    dsimp only
    rw [hFault]
    rfl

/-- Random blocks are written unless one of them has a weight that is too long. -/
theorem mapM_write (blocks : List RandomBlock) :
    blocks.mapM (RandomBlock.write pad) =
      Integer.guarded (blocks.findSome? RandomBlock.fault?) (blocks.map (RandomBlock.print pad)) := by
  induction blocks with
  | nil => rfl
  | cons block blocks ih =>
      rw [List.mapM_cons, ih, RandomBlock.write, List.findSome?_cons]
      cases block.fault? with
      | some fault => rfl
      | none => cases blocks.findSome? RandomBlock.fault? <;> rfl

/-- Giving out the random blocks changes none of them, as they keep no text. -/
theorem random_runs :
    Runs (random pad) (fun quest => quest.random.findSome? RandomBlock.fault?)
      (fun quest => quest.random.map (RandomBlock.print pad)) id
      (fun quest left => left = quest) := by
  have hTaken := @taken_runs _ (fun quest => quest.random.findSome? RandomBlock.fault?)
    fun quest => quest.random.map (RandomBlock.print pad)
  have hRandom : random pad = get >>= fun quest => orStop (Integer.guarded
      (quest.random.findSome? RandomBlock.fault?) (quest.random.map (RandomBlock.print pad))) := by
    simp only [random, mapM_write]
  rw [hRandom]
  exact hTaken

/-- A script is what the content of the quest is written as, and it leaves all texts made anew. -/
theorem script_runs :
    Runs (script schema pad) (Quest.fault? schema) (Quest.print schema pad) (Quest.refresh schema)
      (fun quest left => left.uncached = quest.uncached) := by
  have hAttributes := @taken_runs _ Quest.attributeFault? Quest.attributeLines
  have hMain := Along.main_runs (mainBlock_runs schema pad)
  have hStates := Along.states_runs (state_runs schema pad)
  have hRandom := random_runs pad
  have hAll := hAttributes.bind (fun attributes => hMain.bind (fun main => hStates.bind
    (fun states => hRandom.bind_pure fun random =>
      "\n\n".intercalate ([joinLines attributes] ++ main ++ states ++ random) ++ "\n")
    fun _ => rfl) fun _ => rfl) fun _ => rfl
  refine (hAll.mono ?_).congr (fun quest => ?_) (fun _ => rfl) fun _ => rfl
  · rintro quest left (rfl | hLeft | hLeft | rfl)
    · rfl
    · exact hLeft
    · exact hLeft.trans quest.uncached_refreshMain
    · exact quest.uncached_refresh
  · rw [Quest.fault?, Quest.callFault?_eq, Option.or_assoc]

/-! #### Documents -/

/-- The encoding that trusts the kept texts is the plain one where they have just been made. -/
theorem cachedState_refresh (state : State) :
    cachedState (state.refresh schema) = Document.encodeState schema state := by
  simp only [cachedState, State.refresh, List.map_map]
  rfl

/-- On a refreshed quest the encoding from kept texts is the encoding from parameters. -/
theorem cachedQuest_refresh (quest : Quest) :
    cachedQuest (quest.refresh schema) = Document.encode schema quest := by
  have hMain : (quest.main.map (State.refresh schema)).toList.map
        (fun main => ("main", cachedState main)) =
      quest.main.toList.map fun main => ("main", Document.encodeState schema main) := by
    cases quest.main with
    | none => rfl
    | some main => exact congrArg (fun main => [("main", main)]) (cachedState_refresh schema main)
  have hStates : (quest.states.map (State.refresh schema)).map cachedState =
      quest.states.map (Document.encodeState schema) := by
    rw [List.map_map]
    exact List.map_congr_left fun state _ => cachedState_refresh schema state
  simp only [cachedQuest, Document.encode, Quest.refresh, hMain, hStates]

/-- A document that takes the texts that were made anew is what the content of the quest is written
as. -/
theorem document_runs :
    Runs (document schema) (Quest.callFault? schema) (Document.encode schema) (Quest.refresh schema)
      (fun quest left => left.uncached = quest.uncached) where
  ok {quest} hFault := by
    rw [document, EStateM.run_bind, (Refresh.quest_runs schema).ok hFault, ← cachedQuest_refresh]
    rfl
  error {quest fault} hFault := by
    obtain ⟨left, hRun, hLeft⟩ := (Refresh.quest_runs schema).error hFault
    refine ⟨left, ?_, hLeft⟩
    rw [document, EStateM.run_bind, hRun]

end Export

/-! ### Exports -/

variable {schema : Schema}

/-- The lines of a state are printed from its parameters, so they do not depend on the kept texts.
-/
theorem State.bodyLines_uncached (pad : String) (state : State) :
    state.uncached.bodyLines schema pad = state.bodyLines schema pad := by
  simp only [bodyLines, uncached, List.map_map]
  rfl

/-- The printed quest does not depend on the kept texts. -/
theorem Quest.print_uncached (pad : String) (quest : Quest) :
    quest.uncached.print schema pad = quest.print schema pad := by
  have hMain : State.printMain schema pad ∘ State.uncached = State.printMain schema pad :=
    funext fun main => congrArg (printBlock "Main") (main.bodyLines_uncached pad)
  have hState : State.print schema pad ∘ State.uncached = State.print schema pad :=
    funext fun state => congrArg (printBlock _) (state.bodyLines_uncached pad)
  have hSections : quest.uncached.sections schema pad = quest.sections schema pad := by
    simp only [sections, uncached, Option.toList_map, List.map_map, hMain, hState]
    rfl
  rw [print, print, hSections]

/-- What giving out a quest does to one and to another that differs in cached text at most. If there is
no fault both give the same, and are left the same, namely as the one quest was but for its cached text,
which is now right for every call; to give it out once more gives the same and changes nothing. At a
fault both end with it, also once more, and nothing changes but cached text. -/
structure Quest.GivenOutAlike {ε α : Type} (schema : Schema) (give : EStateM ε Quest α)
    (fault? : Option ε) (made : α) (quest quest' : Quest) : Prop where
  given (hFault : fault? = none) : ∃ left,
    give.run quest = .ok made left ∧ give.run quest' = .ok made left ∧
      left.uncached = quest.uncached ∧ left.CachedText schema ∧ give.run left = .ok made left
  stopped {fault : ε} (hFault : fault? = some fault) : ∃ left left',
    give.run quest = .error fault left ∧ give.run quest' = .error fault left' ∧
      left.uncached = quest.uncached ∧ left'.uncached = quest'.uncached ∧
      ∃ again, give.run left = .error fault again ∧ again.uncached = quest.uncached

/-- Quests are given out alike if neither what is given out nor a fault of it is made of what is cached,
and all texts are made anew on the way. -/
theorem Quest.GivenOutAlike.of_runs {ε α : Type} {give : EStateM ε Quest α}
    {fault? : Quest → Option ε} {made : Quest → α}
    (hRuns : Runs give fault? made (Quest.refresh schema)
      (fun quest left => left.uncached = quest.uncached))
    (hFaults : ∀ quest, fault? quest.uncached = fault? quest)
    (hMade : ∀ quest, made quest.uncached = made quest)
    (hCalls : ∀ quest, fault? quest = none → quest.callFault? schema = none) {quest quest' : Quest}
    (hSame : quest.uncached = quest'.uncached) :
    GivenOutAlike schema give (fault? quest) (made quest) quest quest' := by
  have hFault {quest quest' : Quest} (hSame : quest.uncached = quest'.uncached) :
      fault? quest = fault? quest' := by rw [← hFaults quest, hSame, hFaults]
  have hGiven {quest quest' : Quest} (hSame : quest.uncached = quest'.uncached)
      (hNone : fault? quest = none) :
      give.run quest' = .ok (made quest) (quest.refresh schema) := by
    rw [hRuns.ok ((hFault hSame).symm.trans hNone), ← hMade quest, hSame, hMade, refresh_eq hSame]
  constructor
  · intro hNone
    have hAgain : quest.uncached = (quest.refresh schema).uncached := quest.uncached_refresh.symm
    have hFaultless : (quest.refresh schema).callFault? schema = none :=
      quest.callFault?_refresh.trans (hCalls quest hNone)
    exact ⟨quest.refresh schema, hRuns.ok hNone, hGiven hSame hNone, quest.uncached_refresh,
      Quest.cachedText_iff.2 ⟨quest.refresh_printed, hFaultless⟩, hGiven hAgain hNone⟩
  · intro fault hSome
    obtain ⟨left, hRun, hLeft⟩ := hRuns.error hSome
    obtain ⟨left', hRun', hLeft'⟩ := hRuns.error ((hFault hSame).symm.trans hSome)
    obtain ⟨again, hAgain, hKept⟩ := hRuns.error ((hFault hLeft).trans hSome)
    exact ⟨left, left', hRun, hRun', hLeft, hLeft', again, hAgain, hKept.trans hLeft⟩

/-- What was cached before never gets out. Quests that differ in cached text at most are given out
alike, as a document and as a script with any indent that there is; both are what the content of the
quest is written as. A document is given out exactly if every call can be written, and a script if the
rest of the quest can be written too. With an indent that is too far from zero nothing is written at
all, and every quest is left as it was. -/
theorem Quest.exports_ignore_cachedText (schema : Schema) (indent : Int) {quest quest' : Quest}
    (hSame : quest.uncached = quest'.uncached) :
    GivenOutAlike schema (Export.document schema) (quest.callFault? schema)
        (Document.encode schema quest) quest quest' ∧
      match padding indent with
      | .ok pad =>
        GivenOutAlike schema (exportScript schema indent)
          ((quest.fault? schema).map ExportError.oversize) (quest.print schema pad) quest quest'
      | .error error =>
        ∀ other : Quest, (exportScript schema indent).run other = .error (.indent error) other := by
  constructor
  · have hDocument (quest : Quest) :
        Document.encode schema quest.uncached = Document.encode schema quest := by
      rw [← Export.cachedQuest_refresh, ← Export.cachedQuest_refresh, refresh_uncached]
    exact .of_runs (Export.document_runs schema) callFault?_uncached hDocument
      (fun quest hFault => hFault) hSame
  · cases hPad : padding indent with
    | error error =>
        intro other
        rw [exportScript, Export.indented, hPad]
        rfl
    | ok pad =>
        have hScript : exportScript schema indent =
            EStateM.adaptExcept ExportError.oversize (Export.script schema pad) := by
          rw [exportScript, Export.indented, hPad]
          rfl
        have hCalls (quest : Quest) (hFault : (quest.fault? schema).map ExportError.oversize = none) :
            quest.callFault? schema = none := by
          rw [Option.map_eq_none_iff, fault?, Option.or_eq_none_iff, Option.or_eq_none_iff] at hFault
          exact hFault.2.1
        dsimp only
        rw [hScript]
        exact .of_runs ((Export.script_runs schema pad).adapt ExportError.oversize)
          (fun quest => by rw [quest.fault?_uncached]) (fun quest => quest.print_uncached pad) hCalls
          hSame

/-- Stale texts in the main block and behind a state, none of which gets out; and with an argument of
too many digits behind the main block nothing gets out. -/
theorem Quest.exports_ignore_cachedText_sample :
    let quest : Quest :=
      { Quest.blank 7 with
        main := some ⟨"Main", "", [⟨"Say", [.int 1], "stale"⟩], []⟩
        states := [⟨"A", "", [], [⟨"Done", [], "B 1", "Done() goto A"⟩]⟩] }
    let quest' : Quest :=
      { Quest.blank 7 with
        main := some ⟨"Main", "", [⟨"Say", [.int 1], "Say(1);"⟩], []⟩
        states := [⟨"A", "", [], [⟨"Done", [], "B 1", ""⟩]⟩] }
    let long : Quest :=
      { quest with states := [⟨"A", "", [⟨"Say", [.int (tenPow Integer.maxDigits)], "stale"⟩], []⟩] }
    let script := "questname = \"\"\nversion = 1\n\nMain \x7b\n  Say(1);\n\x7d\n\n" ++
      "State \"A\" \x7b\n  Done() goto \"B 1\"\n\x7d\n"
    quest.uncached = quest'.uncached ∧
      (∃ left, (exportScript Schema.empty 2).run quest = .ok script left ∧
        (exportScript Schema.empty 2).run quest' = .ok script left ∧
        left.CachedText Schema.empty) ∧
      ∃ left, (Export.document Schema.empty).run long = .error .toText left ∧
        left.uncached = long.uncached := by
  intro quest quest' long script
  have hSame : quest.uncached = quest'.uncached := by decide +kernel
  have hScript := (exports_ignore_cachedText Schema.empty 2 hSame).2
  obtain ⟨left, hRun, hRun', -, hCached, -⟩ := hScript.given (by decide +kernel)
  have hText : quest.print Schema.empty "  " = script := by decide +kernel
  rw [← hText]
  refine ⟨hSame, ⟨left, hRun, hRun', hCached⟩, ?_⟩
  have hLong : long.callFault? Schema.empty = some .toText := by decide +kernel
  have hDocument := (exports_ignore_cachedText Schema.empty 2 (rfl : long.uncached = long.uncached)).1
  obtain ⟨left, _, hStopped, -, hKept, -⟩ := hDocument.stopped hLong
  exact ⟨left, hStopped, hKept⟩

end QuestScript

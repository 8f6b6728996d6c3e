import QuestScript.Quest.Refresh
import QuestScript.Proofs.Quest.Writing
/-!
Going along a quest and changing it in place. Where nothing is at fault everything is changed; at a
fault the going stops, and what came before it stays changed.

Making the cached texts of a quest anew is the first use of that: it reaches the end exactly if every
call can be written, and stopped or not it changes nothing but cached texts.
-/

namespace QuestScript

namespace Along

variable {ε σ τ α β : Type}

/-- What something that is done in place comes to. Without a fault it gives a result and makes a
change. At a fault it ends with that, and what it leaves is related to what there was. -/
structure Runs (visit : EStateM ε σ α) (fault? : σ → Option ε) (result : σ → α) (change : σ → σ)
    (Left : σ → σ → Prop) : Prop where
  ok {whole : σ} (hFault : fault? whole = none) :
    visit.run whole = .ok (result whole) (change whole)
  error {whole : σ} {fault : ε} (hFault : fault? whole = some fault) :
    ∃ left, visit.run whole = .error fault left ∧ Left whole left

/-- What is left of a list whose items were visited up to one that stopped it. -/
inductive LeftIn (change : σ → σ) (Left : σ → σ → Prop) : List σ → List σ → Prop where
  | stopped {before after : List σ} {item left : σ} (hLeft : Left item left) :
      LeftIn change Left (before ++ item :: after) (before.map change ++ left :: after)

/-- A list left half-way stays so behind an item that went through. -/
theorem LeftIn.cons {change : σ → σ} {Left : σ → σ → Prop} {items left : List σ}
    (hLeft : LeftIn change Left items left) (item : σ) :
    LeftIn change Left (item :: items) (change item :: left) := by
  cases hLeft with
  | @stopped before after _ _ hLeft => exact @stopped _ change Left (item :: before) after _ _ hLeft

/-- What every change of an item keeps, also a half-done one, is kept all along the list. -/
theorem LeftIn.map_eq {change : σ → σ} {Left : σ → σ → Prop} {items left : List σ}
    (hItems : LeftIn change Left items left) {kept : σ → β}
    (hChange : ∀ item, kept (change item) = kept item)
    (hLeft : ∀ item left, Left item left → kept left = kept item) :
    left.map kept = items.map kept := by
  cases hItems with
  | stopped hItem =>
      have hBefore : kept ∘ change = kept := funext hChange
      rw [List.map_append, List.map_append, List.map_map, hBefore, List.map_cons, List.map_cons,
        hLeft _ _ hItem]

/-- Of one item there is one left, if there is one. -/
theorem LeftIn.head?_toList {change : σ → σ} {Left : σ → σ → Prop} {item? : Option σ}
    {left : List σ} (hLeft : LeftIn change Left item?.toList left) : left.head?.toList = left := by
  have hLength : left.map (fun _ => ()) = item?.toList.map fun _ => () :=
    hLeft.map_eq (fun _ => rfl) fun _ _ _ => rfl
  cases item? with
  | none =>
      obtain rfl : left = [] := List.map_eq_nil_iff.1 hLength
      rfl
  | some item =>
      obtain ⟨other, rfl, -⟩ := List.map_eq_singleton_iff.1 hLength
      rfl

namespace Runs

variable {visit : EStateM ε σ α} {fault? : σ → Option ε} {result : σ → α} {change : σ → σ}
  {Left : σ → σ → Prop}

/-- Less may be said of what is left. -/
theorem mono (hRuns : Runs visit fault? result change Left) {Left' : σ → σ → Prop}
    (hLeft : ∀ whole left, Left whole left → Left' whole left) :
    Runs visit fault? result change Left' where
  ok := hRuns.ok
  error hFault := by
    obtain ⟨left, hRun, hWhole⟩ := hRuns.error hFault
    exact ⟨left, hRun, hLeft _ _ hWhole⟩

/-- The fault, the result and the change in other words. -/
theorem congr (hRuns : Runs visit fault? result change Left) {fault?' : σ → Option ε}
    {result' : σ → α} {change' : σ → σ} (hFault : ∀ whole, fault? whole = fault?' whole)
    (hResult : ∀ whole, result whole = result' whole)
    (hChange : ∀ whole, change whole = change' whole) :
    Runs visit fault?' result' change' Left := by
  obtain rfl : fault? = fault?' := funext hFault
  obtain rfl : result = result' := funext hResult
  obtain rfl : change = change' := funext hChange
  exact hRuns

/-- The fault of a list is that of its first item at fault. -/
theorem each (hRuns : Runs visit fault? result change Left) :
    Runs (Along.each visit) (List.findSome? fault?) (List.map result) (List.map change)
      (LeftIn change Left) := by
  have hRun (items : List σ) :
      (items.findSome? fault? = none →
        Along.each visit items = .ok (items.map result) (items.map change)) ∧
      ∀ fault, items.findSome? fault? = some fault →
        ∃ left, Along.each visit items = .error fault left ∧ LeftIn change Left items left := by
    induction items with
    | nil => exact ⟨fun _ => rfl, nofun⟩
    | cons item items ih =>
        rw [List.findSome?_cons]
        cases hItem : fault? item with
        | some fault =>
            obtain ⟨left, hError, hLeft⟩ := hRuns.error hItem
            refine ⟨nofun, ?_⟩
            rintro _ ⟨⟩
            refine ⟨left :: items, ?_, @LeftIn.stopped _ change Left [] items item left hLeft⟩
            rw [Along.each, hError]
        | none =>
            constructor
            · intro hItems
              rw [Along.each, hRuns.ok hItem, ih.1 hItems]
              rfl
            · intro fault hItems
              obtain ⟨left, hError, hLeft⟩ := ih.2 fault hItems
              refine ⟨change item :: left, ?_, hLeft.cons item⟩
              rw [Along.each, hRuns.ok hItem, hError]
  exact ⟨fun hFault => (hRun _).1 hFault, fun hFault => (hRun _).2 _ hFault⟩

/-- What is done to a part is done to the whole, and so it is where it stops. -/
theorem part (hRuns : Runs visit fault? result change Left) (take : τ → σ) (put : σ → τ → τ) :
    Runs (Along.part take put visit) (fun whole => fault? (take whole))
      (fun whole => result (take whole)) (fun whole => put (change (take whole)) whole)
      (fun whole left => ∃ part, Left (take whole) part ∧ left = put part whole) where
  ok hFault := by
    change Along.part take put visit _ = _
    rw [Along.part, hRuns.ok hFault]
  error hFault := by
    obtain ⟨part, hError, hLeft⟩ := hRuns.error hFault
    refine ⟨put part _, ?_, part, hLeft, rfl⟩
    change Along.part take put visit _ = _
    rw [Along.part, hError]

/-- One thing after another. A fault of the second one counts if the first one has none, and must
not depend on what the first one changes. -/
theorem bind (hRuns : Runs visit fault? result change Left) {next : α → EStateM ε σ β}
    {fault?' : σ → Option ε} {result' : α → σ → β} {change' : σ → σ} {Left' : σ → σ → Prop}
    (hNext : ∀ value, Runs (next value) fault?' (result' value) change' Left')
    (hKept : ∀ whole, fault?' (change whole) = fault?' whole) :
    Runs (visit >>= next) (fun whole => (fault? whole).or (fault?' whole))
      (fun whole => result' (result whole) (change whole)) (fun whole => change' (change whole))
      (fun whole left => Left whole left ∨ Left' (change whole) left) where
  ok hFault := by
    obtain ⟨hFirst, hSecond⟩ := Option.or_eq_none_iff.1 hFault
    rw [EStateM.run_bind, hRuns.ok hFirst]
    exact (hNext _).ok ((hKept _).trans hSecond)
  error hFault := by
    rcases Option.or_eq_some_iff.1 hFault with hFirst | ⟨hFirst, hSecond⟩
    · obtain ⟨left, hError, hLeft⟩ := hRuns.error hFirst
      refine ⟨left, ?_, Or.inl hLeft⟩
      rw [EStateM.run_bind, hError]
    · rw [EStateM.run_bind, hRuns.ok hFirst]
      obtain ⟨left, hError, hLeft⟩ := (hNext _).error ((hKept _).trans hSecond)
      exact ⟨left, hError, Or.inr hLeft⟩

/-- A visit keeps its faults and its changes when its result is read another way. -/
theorem map (hRuns : Runs visit fault? result change Left) (read : α → β) :
    Runs (read <$> visit) fault? (fun whole => read (result whole)) change Left where
  ok hFault := by
    rw [← bind_pure_comp, EStateM.run_bind, hRuns.ok hFault]
    rfl
  error hFault := by
    obtain ⟨left, hError, hLeft⟩ := hRuns.error hFault
    refine ⟨left, ?_, hLeft⟩
    rw [← bind_pure_comp, EStateM.run_bind, hError]

/-- A fault that is passed on as another one. -/
theorem adapt {ε' : Type} (hRuns : Runs visit fault? result change Left) (wrap : ε → ε') :
    Runs (EStateM.adaptExcept wrap visit) (fun whole => (fault? whole).map wrap) result change
      Left where
  ok {whole} hFault := by
    have hRun := hRuns.ok (Option.map_eq_none_iff.1 hFault)
    change visit whole = _ at hRun
    change EStateM.adaptExcept wrap visit whole = _
    rw [EStateM.adaptExcept, hRun]
  error {whole error} hFault := by
    obtain ⟨fault, hWhole, rfl⟩ := Option.map_eq_some_iff.1 hFault
    obtain ⟨left, hRun, hLeft⟩ := hRuns.error hWhole
    refine ⟨left, ?_, hLeft⟩
    change visit whole = _ at hRun
    change EStateM.adaptExcept wrap visit whole = _
    rw [EStateM.adaptExcept, hRun]

theorem bind_pure (hRuns : Runs visit fault? result change Left) (read : α → β) :
    Runs (visit >>= fun value => pure (read value)) fault? (fun whole => read (result whole)) change
      Left := by
  rw [bind_pure_comp]
  exact hRuns.map read

/-- A change that nothing stops. -/
theorem modify (change : σ → σ) (result : α) :
    Runs (modify change >>= fun _ => pure result : EStateM ε σ α) (fun _ => none) (fun _ => result)
      change (fun _ _ => False) where
  ok _ := rfl
  error := nofun

/-- Something that looks at the whole first. -/
theorem look {next : σ → EStateM ε σ β} {result : σ → σ → β}
    (hNext : ∀ whole, Runs (next whole) fault? (result whole) change Left) :
    Runs (get >>= next) fault? (fun whole => result whole whole) change Left where
  ok hFault := by
    rw [EStateM.run_bind, EStateM.run_get]
    exact (hNext _).ok hFault
  error hFault := by
    obtain ⟨left, hError, hLeft⟩ := (hNext _).error hFault
    refine ⟨left, ?_, hLeft⟩
    rw [EStateM.run_bind, EStateM.run_get]
    exact hError

end Runs

end Along

/-! ### Quests without cached text -/

def Action.uncached (action : Action) : Action := { action with rawText := "" }

def Rule.uncached (rule : Rule) : Rule := { rule with rawText := "" }

def State.uncached (state : State) : State :=
  { state with
    actions := state.actions.map Action.uncached
    rules := state.rules.map Rule.uncached }

/-- The quest with nothing cached. Two quests differ in cached text at most if they agree in this. -/
def Quest.uncached (quest : Quest) : Quest :=
  { quest with
    main := quest.main.map State.uncached
    states := quest.states.map State.uncached }

section

variable {schema : Schema}

/-- Refreshing a state changes its kept texts only. -/
theorem State.uncached_refresh (state : State) : (state.refresh schema).uncached = state.uncached := by
  simp only [uncached, refresh, List.map_map]
  rfl

theorem State.uncached_refreshActions (state : State) :
    uncached { state with actions := state.actions.map (Action.refresh schema) } =
      state.uncached := by
  simp only [uncached, List.map_map]
  rfl

/-- Refreshing the main block changes kept texts only. -/
theorem Quest.uncached_refreshMain (quest : Quest) :
    uncached { quest with main := quest.main.map (State.refresh schema) } = quest.uncached := by
  have hRefresh : State.uncached ∘ State.refresh schema = State.uncached :=
    funext State.uncached_refresh
  simp only [uncached, Option.map_map, hRefresh]

/-- Refreshing a quest changes its kept texts only. -/
theorem Quest.uncached_refresh (quest : Quest) : (quest.refresh schema).uncached = quest.uncached := by
  have hStates : State.uncached ∘ State.refresh schema = State.uncached :=
    funext State.uncached_refresh
  simp only [uncached, refresh, Option.map_map, List.map_map, hStates]

/-- The refreshed state does not depend on the texts that were kept before. -/
theorem State.refresh_uncached (state : State) :
    state.uncached.refresh schema = state.refresh schema := by
  simp only [uncached, refresh, List.map_map]
  rfl

/-- The refreshed quest does not depend on the texts that were kept before. -/
theorem Quest.refresh_uncached (quest : Quest) :
    quest.uncached.refresh schema = quest.refresh schema := by
  have hStates : State.refresh schema ∘ State.uncached = State.refresh schema :=
    funext State.refresh_uncached
  simp only [uncached, refresh, Option.map_map, List.map_map, hStates]

/-- Making all texts anew leaves nothing of what was cached. -/
theorem Quest.refresh_eq {quest quest' : Quest} (hSame : quest.uncached = quest'.uncached) :
    quest.refresh schema = quest'.refresh schema := by
  rw [← quest.refresh_uncached, hSame, quest'.refresh_uncached]

/-- Whether calls can be written is no matter of cached text. -/
theorem State.fault?_uncached (state : State) :
    state.uncached.fault? schema = state.fault? schema := by
  simp only [fault?, uncached, List.findSome?_map]
  rfl

/-- Whether a state can be written depends on its parameters. The kept texts have no part in it.
-/
theorem State.fault?_eq_of_uncached {state state' : State}
    (hSame : state.uncached = state'.uncached) : state.fault? schema = state'.fault? schema := by
  rw [← state.fault?_uncached, hSame, state'.fault?_uncached]

/-- The first call that cannot be written is looked for in the main block and then in the states.
-/
theorem Quest.callFault?_eq (quest : Quest) :
    quest.callFault? schema =
      (quest.main.toList.findSome? (State.fault? schema)).or
        (quest.states.findSome? (State.fault? schema)) := by
  rw [callFault?, blocks, List.findSome?_append]

theorem Quest.callFault?_uncached (quest : Quest) :
    quest.uncached.callFault? schema = quest.callFault? schema := by
  have hState : State.fault? schema ∘ State.uncached = State.fault? schema :=
    funext State.fault?_uncached
  simp only [callFault?_eq, uncached, Option.toList_map, List.findSome?_map, hState]

/-- Refreshing changes no parameter, so it makes no call fail and repairs none. -/
theorem Quest.callFault?_refresh (quest : Quest) :
    (quest.refresh schema).callFault? schema = quest.callFault? schema := by
  rw [← callFault?_uncached, uncached_refresh, callFault?_uncached]

theorem Quest.fault?_uncached (quest : Quest) :
    quest.uncached.fault? schema = quest.fault? schema := by
  rw [fault?, callFault?_uncached]
  rfl

end

/-! ### Cached texts -/

namespace Refresh

open Along

variable (schema : Schema)

/-- The text of an action is made anew if it can be written, and else nothing happens. -/
theorem action_runs :
    Runs (action schema) (Action.fault? schema) (fun _ => ()) (Action.refresh schema)
      (fun action left => left = action) where
  ok {action} hFault := by
    have hWrite : action.write schema = .ok (action.print schema) := by
      rw [Action.write, hFault, Integer.guarded_none]
    rw [Refresh.action, EStateM.run_bind, EStateM.run_get]
    simp only [hWrite]
    rfl
  error {action fault} hFault := by
    have hWrite : action.write schema = .error fault := by
      rw [Action.write, hFault, Integer.guarded_some]
    refine ⟨action, ?_, rfl⟩
    rw [Refresh.action, EStateM.run_bind, EStateM.run_get]
    simp only [hWrite]
    rfl

/-- The text of a rule is made anew if it can be written, and else nothing happens. -/
theorem rule_runs :
    Runs (rule schema) (Rule.fault? schema) (fun _ => ()) (Rule.refresh schema)
      (fun rule left => left = rule) where
  ok {rule} hFault := by
    have hWrite : rule.write schema = .ok (rule.print schema) := by
      rw [Rule.write, hFault, Integer.guarded_none]
    rw [Refresh.rule, EStateM.run_bind, EStateM.run_get]
    simp only [hWrite]
    rfl
  error {rule fault} hFault := by
    have hWrite : rule.write schema = .error fault := by
      rw [Rule.write, hFault, Integer.guarded_some]
    refine ⟨rule, ?_, rfl⟩
    rw [Refresh.rule, EStateM.run_bind, EStateM.run_get]
    simp only [hWrite]
    rfl

end Refresh

/-! ### Blocks and quests

Whatever goes along the calls of a quest and makes the text of each anew, as it comes to it. -/

namespace Along

variable {schema : Schema} {α : Type}

/-- A visit of all actions runs through them in order and stops at the first that fails, with the
ones before it refreshed. -/
theorem actions_runs {visit : EStateM Integer.Oversize Action α} {result : Action → α}
    (hVisit : Runs visit (Action.fault? schema) result (Action.refresh schema)
      (fun action left => left = action)) :
    Runs (actions visit) (fun state => state.actions.findSome? (Action.fault? schema))
      (fun state => state.actions.map result)
      (fun state => { state with actions := state.actions.map (Action.refresh schema) })
      (fun state left => left.uncached = state.uncached) := by
  refine (hVisit.each.part State.actions fun actions state => { state with actions }).mono ?_
  rintro state _ ⟨actions, hLeft, rfl⟩
  have hSame : actions.map Action.uncached = state.actions.map Action.uncached := by
    refine hLeft.map_eq (fun action => rfl) ?_
    rintro action _ rfl
    rfl
  simp only [State.uncached, hSame]

/-- A visit of all rules runs through them as one of all actions does. -/
theorem rules_runs {visit : EStateM Integer.Oversize Rule α} {result : Rule → α}
    (hVisit : Runs visit (Rule.fault? schema) result (Rule.refresh schema)
      (fun rule left => left = rule)) :
    Runs (rules visit) (fun state => state.rules.findSome? (Rule.fault? schema))
      (fun state => state.rules.map result)
      (fun state => { state with rules := state.rules.map (Rule.refresh schema) })
      (fun state left => left.uncached = state.uncached) := by
  refine (hVisit.each.part State.rules fun rules state => { state with rules }).mono ?_
  rintro state _ ⟨rules, hLeft, rfl⟩
  have hSame : rules.map Rule.uncached = state.rules.map Rule.uncached := by
    refine hLeft.map_eq (fun rule => rfl) ?_
    rintro rule _ rfl
    rfl
  simp only [State.uncached, hSame]

/-- A visit of the main block is one of this block, if there is any. -/
theorem main_runs {visit : EStateM Integer.Oversize State α} {result : State → α}
    (hVisit : Runs visit (State.fault? schema) result (State.refresh schema)
      (fun state left => left.uncached = state.uncached)) :
    Runs (main visit) (fun quest => quest.main.toList.findSome? (State.fault? schema))
      (fun quest => quest.main.toList.map result)
      (fun quest => { quest with main := quest.main.map (State.refresh schema) })
      (fun quest left => left.uncached = quest.uncached) := by
  have hPart := hVisit.each.part (fun quest : Quest => quest.main.toList) fun main quest =>
    { quest with main := main.head? }
  refine (hPart.mono ?_).congr (fun _ => rfl) (fun _ => rfl) fun quest => ?_
  · rintro quest _ ⟨main, hLeft, rfl⟩
    have hSame : main.map State.uncached = quest.main.toList.map State.uncached :=
      hLeft.map_eq (fun state => state.uncached_refresh) fun state left hState => hState
    have hMain : main.head?.map State.uncached = quest.main.map State.uncached := by
      rw [← List.head?_map, hSame, ← Option.toList_map, Option.head?_toList]
    simp only [Quest.uncached, hMain]
  · rw [← Option.toList_map, Option.head?_toList]

/-- A visit of all states stops in the first state that fails, and leaves that one refreshed up to
the failure. -/
theorem states_runs {visit : EStateM Integer.Oversize State α} {result : State → α}
    (hVisit : Runs visit (State.fault? schema) result (State.refresh schema)
      (fun state left => left.uncached = state.uncached)) :
    Runs (states visit) (fun quest => quest.states.findSome? (State.fault? schema))
      (fun quest => quest.states.map result)
      (fun quest => { quest with states := quest.states.map (State.refresh schema) })
      (fun quest left => left.uncached = quest.uncached) := by
  refine (hVisit.each.part Quest.states fun states quest => { quest with states }).mono ?_
  rintro quest _ ⟨states, hLeft, rfl⟩
  have hSame : states.map State.uncached = quest.states.map State.uncached :=
    hLeft.map_eq (fun state => state.uncached_refresh) fun state left hState => hState
  simp only [Quest.uncached, hSame]

end Along

namespace Refresh

open Along

variable (schema : Schema)

/-- The texts of a state are made anew if all of its calls can be written. -/
theorem state_runs :
    Runs (state schema) (State.fault? schema) (fun _ => ()) (State.refresh schema)
      (fun state left => left.uncached = state.uncached) := by
  have hActions := (actions_runs (action_runs schema)).map fun _ => ()
  have hRules := (rules_runs (rule_runs schema)).map fun _ => ()
  refine (hActions.bind (fun _ => hRules) fun _ => rfl).mono ?_
  exact fun state left hLeft => hLeft.elim id fun hRules => hRules.trans state.uncached_refreshActions

/-- The texts of a quest are made anew if all of its calls can be written. -/
theorem quest_runs :
    Runs (quest schema) (Quest.callFault? schema) (fun _ => ()) (Quest.refresh schema)
      (fun quest left => left.uncached = quest.uncached) := by
  have hMain := (main_runs (state_runs schema)).map fun _ => ()
  have hStates := (states_runs (state_runs schema)).map fun _ => ()
  refine ((hMain.bind (fun _ => hStates) fun _ => rfl).mono ?_).congr
    (fun quest => quest.callFault?_eq.symm) (fun _ => rfl) fun _ => rfl
  exact fun quest left hLeft => hLeft.elim id fun hStates => hStates.trans quest.uncached_refreshMain

end Refresh

end QuestScript

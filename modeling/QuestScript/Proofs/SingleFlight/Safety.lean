import QuestScript.SingleFlight
import Mathlib.Data.List.Induction
/-!
Whole runs of single-flight loading. A value that is kept is that of the last load, callers are
answered by loads that were not dropped before they came, and loads are started no more often than
drops and failures call for.

A load that is there when the value is dropped is behind a floor from then on: nothing that comes
later has to do with it. The invariant is about the floor and the state, and each step keeps it.
-/

namespace QuestScript.SingleFlight

variable {α : Type}

/-- A load was started after each time the value was dropped: at none of those times it was there. -/
def StartedAfterDrops (steps : List (Step α)) (load : Nat) : Prop :=
  ∀ before after, steps = before ++ .invalidate :: after → (start.run before).loads.length ≤ load

def Step.isDrop : Step α → Bool
  | .invalidate => true
  | _ => false

def Load.hasFailed : Load α → Bool
  | .ended (.failure _) => true
  | _ => false

theorem run_append (flight : SingleFlight α) (steps : List (Step α)) (last : Step α) :
    flight.run (steps ++ [last]) = (flight.run steps).step last := by
  rw [run, List.foldl_append]
  rfl

/-! ### What a caller finds -/

/-- What a call does: it answers with the value that is kept, starts a load, takes the outcome of a
load that ended unnoticed, or joins the current load. -/
inductive Calls (flight : SingleFlight α) : SingleFlight α → Prop where
  | kept {value : α} (hKept : flight.kept = some value) :
      Calls flight (flight.addCaller (.answered (.value value)))
  | starts (hKept : flight.kept = none) (hCurrent : flight.current = none) :
      Calls flight
        { flight with
          current := some flight.loads.length
          loads := flight.loads ++ [.running]
          callers := flight.callers ++ [.waiting flight.loads.length] }
  | takes {load : Nat} {outcome : Outcome α} (hKept : flight.kept = none)
      (hCurrent : flight.current = some load) (hEnded : flight.loads[load]? = some (.ended outcome)) :
      Calls flight ((flight.settle outcome).addCaller (.answered outcome))
  | joins {load : Nat} (hKept : flight.kept = none) (hCurrent : flight.current = some load)
      (hRuns : ∀ outcome, flight.loads[load]? ≠ some (.ended outcome)) :
      Calls flight (flight.addCaller (.waiting load))

/-- A call is one of its four cases. -/
theorem call_calls (flight : SingleFlight α) : Calls flight flight.call := by
  unfold call
  split
  · next value hKept => exact Calls.kept hKept
  · next hKept =>
      split
      · next hCurrent => exact Calls.starts hKept hCurrent
      · next load hCurrent =>
          split
          · next outcome hEnded => exact Calls.takes hKept hCurrent hEnded
          · next hRuns => exact Calls.joins hKept hCurrent hRuns

@[simp] theorem settle_loads (flight : SingleFlight α) (outcome : Outcome α) :
    (flight.settle outcome).loads = flight.loads := by
  cases outcome <;> rfl

@[simp] theorem settle_callers (flight : SingleFlight α) (outcome : Outcome α) :
    (flight.settle outcome).callers = flight.callers := by
  cases outcome <;> rfl

@[simp] theorem settle_current (flight : SingleFlight α) (outcome : Outcome α) :
    (flight.settle outcome).current = none := by
  cases outcome <;> rfl

/-- What ending a load does: nothing if it does not run; otherwise its callers are answered, and its
outcome is settled or left for the next caller. -/
inductive Finishes (flight : SingleFlight α) (load : Nat) (outcome : Outcome α) :
    SingleFlight α → Prop where
  | idle : Finishes flight load outcome flight
  | settled (hRuns : flight.loads[load]? = some .running) (hCurrent : flight.current = some load) :
      Finishes flight load outcome
        { ({ flight with loads := flight.loads.set load (.ended outcome) } :
            SingleFlight α).settle outcome with
          callers := flight.callers.map fun caller =>
            if caller.waitsFor load then .answered outcome else caller }
  | unnoticed (hRuns : flight.loads[load]? = some .running) :
      Finishes flight load outcome
        { flight with
          loads := flight.loads.set load (.ended outcome)
          callers := flight.callers.map fun caller =>
            if caller.waitsFor load then .answered outcome else caller }

/-- Ending a load is one of its cases, with the load not running as the first. -/
theorem finish_finishes (flight : SingleFlight α) (load : Nat) (outcome : Outcome α) :
    Finishes flight load outcome (flight.finish load outcome) := by
  unfold finish
  split
  · next hRuns =>
      simp only
      split
      · next hSettled =>
          rw [Bool.and_eq_true, decide_eq_true_eq] at hSettled
          exact Finishes.settled hRuns hSettled.2
      · exact Finishes.unnoticed hRuns
  · exact Finishes.idle

/-! ### Loads and callers only move on -/

/-- What may become of a caller: it stays as it is, is answered by the load it waited for, or goes. -/
inductive Caller.Becomes (loads : List (Load α)) : Caller α → Caller α → Prop where
  | same {caller : Caller α} : Becomes loads caller caller
  | answered {load : Nat} {outcome : Outcome α} (hEnded : loads[load]? = some (.ended outcome)) :
      Becomes loads (.waiting load) (.answered outcome)
  | cancelled {load : Nat} : Becomes loads (.waiting load) .cancelled

/-- A state after another one: loads that ended stay as they are, and callers move on. -/
structure Later (flight later : SingleFlight α) : Prop where
  length_le : flight.loads.length ≤ later.loads.length
  ended : ∀ (load : Nat) (outcome : Outcome α), flight.loads[load]? = some (.ended outcome) →
    later.loads[load]? = some (.ended outcome)
  callers : ∀ (place : Nat) (caller : Caller α), flight.callers[place]? = some caller →
    ∃ caller', later.callers[place]? = some caller' ∧ caller.Becomes later.loads caller'

theorem Later.refl (flight : SingleFlight α) : Later flight flight where
  length_le := Nat.le_refl _
  ended := fun _ _ hEnded => hEnded
  callers := fun _ caller hCaller => ⟨caller, hCaller, .same⟩

/-- What becomes of a caller stays true as more loads end. -/
theorem Caller.Becomes.mono {loads loads' : List (Load α)} {caller caller' : Caller α}
    (becomes : caller.Becomes loads caller')
    (hLoads : ∀ (load : Nat) (outcome : Outcome α), loads[load]? = some (.ended outcome) →
      loads'[load]? = some (.ended outcome)) : caller.Becomes loads' caller' := by
  cases becomes with
  | same => exact .same
  | answered hEnded => exact .answered (hLoads _ _ hEnded)
  | cancelled => exact .cancelled

theorem Caller.Becomes.trans {loads : List (Load α)} {caller caller' caller'' : Caller α}
    (first : caller.Becomes loads caller') (second : caller'.Becomes loads caller'') :
    caller.Becomes loads caller'' := by
  cases first with
  | same => exact second
  | answered hEnded =>
      cases second
      exact .answered hEnded
  | cancelled =>
      cases second
      exact .cancelled

theorem Later.trans {flight later latest : SingleFlight α} (first : Later flight later)
    (second : Later later latest) : Later flight latest where
  length_le := Nat.le_trans first.length_le second.length_le
  ended := fun load outcome hEnded => second.ended _ _ (first.ended _ _ hEnded)
  callers := by
    intro place caller hCaller
    obtain ⟨caller', hCaller', becomes⟩ := first.callers place caller hCaller
    obtain ⟨caller'', hCaller'', becomes'⟩ := second.callers place caller' hCaller'
    exact ⟨caller'', hCaller'', (becomes.mono second.ended).trans becomes'⟩

/-- A new caller and a new load leave the old ones as they are. -/
theorem Later.of_append {flight later : SingleFlight α} {loads : List (Load α)}
    {callers : List (Caller α)} (hLoads : later.loads = flight.loads ++ loads)
    (hCallers : later.callers = flight.callers ++ callers) : Later flight later where
  length_le := by simp [hLoads]
  ended := by
    intro load outcome hEnded
    rw [hLoads, List.getElem?_append_left (List.getElem?_eq_some_iff.1 hEnded).1, hEnded]
  callers := by
    intro place caller hCaller
    refine ⟨caller, ?_, .same⟩
    rw [hCallers, List.getElem?_append_left (List.getElem?_eq_some_iff.1 hCaller).1, hCaller]

/-- A call leads to a later state: it adds a caller, and perhaps a load. -/
theorem Calls.later {flight flight' : SingleFlight α} (calls : Calls flight flight') :
    Later flight flight' := by
  cases calls with
  | kept hKept => exact Later.of_append (List.append_nil _).symm rfl
  | starts hKept hCurrent => exact Later.of_append rfl rfl
  | @takes load outcome hKept hCurrent hEnded =>
      have hLoads := (settle_loads flight outcome).trans (List.append_nil flight.loads).symm
      exact Later.of_append hLoads (congrArg (· ++ _) (settle_callers flight _))
  | joins hKept hCurrent hRuns => exact Later.of_append (List.append_nil _).symm rfl

theorem callMany_later (flight : SingleFlight α) (count : Nat) :
    Later flight (flight.callMany count) := by
  induction count generalizing flight with
  | zero => exact Later.refl flight
  | succ count ih => exact (call_calls flight).later.trans (ih flight.call)

/-- Ending a load that runs leaves the loads that ended as they are and answers its callers. -/
theorem Later.of_ended {flight later : SingleFlight α} {load : Nat} {outcome : Outcome α}
    (hRuns : flight.loads[load]? = some .running)
    (hLoads : later.loads = flight.loads.set load (.ended outcome))
    (hCallers : later.callers = flight.callers.map fun caller =>
      if caller.waitsFor load then .answered outcome else caller) : Later flight later where
  length_le := by simp [hLoads]
  ended := by
    intro other outcome' hEnded
    have hNe : load ≠ other := by
      rintro rfl
      rw [hRuns] at hEnded
      cases hEnded
    rw [hLoads, List.getElem?_set_ne hNe, hEnded]
  callers := by
    intro place caller hCaller
    rw [hCallers, List.getElem?_map, hCaller]
    refine ⟨_, rfl, ?_⟩
    change Caller.Becomes _ _ (if caller.waitsFor load then .answered outcome else caller)
    split
    · next hWaits =>
        cases caller with
        | waiting other =>
            have hOther : other = load := by simpa [Caller.waitsFor] using hWaits
            subst hOther
            refine .answered ?_
            rw [hLoads, List.getElem?_set_self (List.getElem?_eq_some_iff.1 hRuns).1]
        | answered outcome' => simp [Caller.waitsFor] at hWaits
        | cancelled => simp [Caller.waitsFor] at hWaits
    · exact .same

/-- Ending a load leads to a later state, in which its callers are answered. -/
theorem Finishes.later {flight flight' : SingleFlight α} {load : Nat} {outcome : Outcome α}
    (finishes : Finishes flight load outcome flight') : Later flight flight' := by
  cases finishes with
  | idle => exact Later.refl flight
  | settled hRuns hCurrent => exact Later.of_ended hRuns (by simp) rfl
  | unnoticed hRuns => exact Later.of_ended hRuns rfl rfl

theorem Finishes.callers_length {flight flight' : SingleFlight α} {load : Nat}
    {outcome : Outcome α} (finishes : Finishes flight load outcome flight') :
    flight'.callers.length = flight.callers.length := by
  cases finishes with
  | idle => rfl
  | settled hRuns hCurrent => exact List.length_map _
  | unnoticed hRuns => exact List.length_map _

theorem cancel_callers_length (flight : SingleFlight α) (gone : Nat) :
    (flight.cancel gone).callers.length = flight.callers.length := by
  unfold cancel
  split
  · exact List.length_set
  · rfl

theorem cancel_later (flight : SingleFlight α) (gone : Nat) :
    Later flight (flight.cancel gone) := by
  unfold cancel
  split
  · next load hWaiting =>
      refine ⟨Nat.le_refl _, fun _ _ hEnded => hEnded, ?_⟩
      intro place caller hCaller
      by_cases hPlace : gone = place
      · subst hPlace
        rw [hWaiting] at hCaller
        cases hCaller
        exact ⟨.cancelled, List.getElem?_set_self (List.getElem?_eq_some_iff.1 hWaiting).1,
          .cancelled⟩
      · exact ⟨caller, (List.getElem?_set_ne hPlace).trans hCaller, .same⟩
  · exact Later.refl flight

/-- Every step leads to a later state, so loads that ended keep their outcome for ever. -/
theorem step_later (flight : SingleFlight α) (step : Step α) : Later flight (flight.step step) := by
  cases step with
  | call count => exact callMany_later flight count
  | finish load outcome => exact (finish_finishes flight load outcome).later
  | cancel gone => exact cancel_later flight gone
  | invalidate => exact Later.of_append (List.append_nil _).symm (List.append_nil _).symm

/-! ### The value and the current load -/

/-- The state above a floor: the current load, and the load of the value that is kept, is the last
one and not behind the floor, and there is at most one of the two. -/
structure Above (floor : Nat) (flight : SingleFlight α) : Prop where
  floor_le : floor ≤ flight.loads.length
  current : ∀ load, flight.current = some load →
    flight.kept = none ∧ flight.loads.length = load + 1 ∧ floor ≤ load
  kept : ∀ value, flight.kept = some value →
    flight.current = none ∧ ∃ load, flight.loads.length = load + 1 ∧ floor ≤ load ∧
      flight.loads[load]? = some (.ended (.value value))

theorem Above.addCaller {floor : Nat} {flight : SingleFlight α} (above : Above floor flight)
    (caller : Caller α) : Above floor (flight.addCaller caller) :=
  ⟨above.floor_le, above.current, above.kept⟩

/-- Settling the outcome of the current load keeps the value of the last load, or nothing. -/
theorem Above.settle {floor : Nat} {flight : SingleFlight α} (above : Above floor flight)
    {load : Nat} (hCurrent : flight.current = some load) {outcome : Outcome α}
    (hEnded : flight.loads[load]? = some (.ended outcome)) :
    Above floor (flight.settle outcome) := by
  obtain ⟨hKept, hLength, hFloor⟩ := above.current load hCurrent
  refine ⟨by simpa using above.floor_le, by simp, ?_⟩
  intro value hValue
  cases outcome with
  | failure message =>
      have hNone : flight.kept = some value := hValue
      rw [hKept] at hNone
      cases hNone
  | value found =>
      cases hValue
      exact ⟨rfl, load, hLength, hFloor, hEnded⟩

/-- A call keeps the state above its floor. -/
theorem Calls.above {floor : Nat} {flight flight' : SingleFlight α} (calls : Calls flight flight')
    (above : Above floor flight) : Above floor flight' := by
  cases calls with
  | kept hKept => exact above.addCaller _
  | starts hKept hCurrent =>
      have hFloor := above.floor_le
      refine ⟨?_, ?_, ?_⟩
      · simp only [List.length_append, List.length_singleton]
        omega
      · intro load hLoad
        cases hLoad
        exact ⟨hKept, List.length_append, hFloor⟩
      · intro value hValue
        have hNone : flight.kept = some value := hValue
        rw [hKept] at hNone
        cases hNone
  | takes hKept hCurrent hEnded => exact (above.settle hCurrent hEnded).addCaller _
  | joins hKept hCurrent hRuns => exact above.addCaller _

theorem callMany_above {floor : Nat} {flight : SingleFlight α} (above : Above floor flight)
    (count : Nat) : Above floor (flight.callMany count) := by
  induction count generalizing flight with
  | zero => exact above
  | succ count ih => exact ih ((call_calls flight).above above)

/-- The end of a load that runs changes neither the value that is kept nor the current load. -/
theorem Above.setEnded {floor : Nat} {flight : SingleFlight α} (above : Above floor flight)
    {load : Nat} (hRuns : flight.loads[load]? = some .running) (outcome : Outcome α) :
    Above floor { flight with loads := flight.loads.set load (.ended outcome) } := by
  refine ⟨by simpa using above.floor_le, by simpa using above.current, ?_⟩
  intro value hValue
  obtain ⟨hCurrent, last, hLength, hFloor, hEnded⟩ := above.kept value hValue
  have hNe : load ≠ last := by
    rintro rfl
    rw [hRuns] at hEnded
    cases hEnded
  exact ⟨hCurrent, last, by simpa using hLength, hFloor,
    (List.getElem?_set_ne hNe).trans hEnded⟩

/-- Ending a load keeps the state above its floor. -/
theorem Finishes.above {floor : Nat} {flight flight' : SingleFlight α} {load : Nat}
    {outcome : Outcome α} (finishes : Finishes flight load outcome flight')
    (above : Above floor flight) : Above floor flight' := by
  cases finishes with
  | idle => exact above
  | settled hRuns hCurrent =>
      have hEnded : (flight.loads.set load (.ended outcome))[load]? = some (.ended outcome) :=
        List.getElem?_set_self (List.getElem?_eq_some_iff.1 hRuns).1
      have hSettled := (above.setEnded hRuns outcome).settle hCurrent hEnded
      exact ⟨hSettled.floor_le, hSettled.current, hSettled.kept⟩
  | unnoticed hRuns =>
      have hSet := above.setEnded hRuns outcome
      exact ⟨hSet.floor_le, hSet.current, hSet.kept⟩

/-- The floor after a step: every load that is there when the value is dropped is behind it. -/
def floorAfter (floor : Nat) (flight : SingleFlight α) : Step α → Nat
  | .invalidate => flight.loads.length
  | _ => floor

/-- A step keeps the state above a floor, which rises when the value is dropped. -/
theorem Above.step {floor : Nat} {flight : SingleFlight α} (above : Above floor flight)
    (step : Step α) : Above (floorAfter floor flight step) (flight.step step) := by
  cases step with
  | call count => exact callMany_above above count
  | finish load outcome => exact (finish_finishes flight load outcome).above above
  | cancel gone =>
      change Above floor (flight.cancel gone)
      unfold cancel
      split
      · exact ⟨above.floor_le, above.current, above.kept⟩
      · exact above
  | invalidate => exact ⟨Nat.le_refl _, nofun, nofun⟩

/-- A load above the floor of a run was started after each drop in it. -/
theorem StartedAfterDrops.append {steps : List (Step α)} {load floor : Nat} {last : Step α}
    (hSteps : StartedAfterDrops steps load)
    (hLoad : floorAfter floor (start.run steps) last ≤ load) :
    StartedAfterDrops (steps ++ [last]) load := by
  intro before after hSplit
  rcases List.eq_nil_or_concat after with rfl | ⟨more, final, rfl⟩
  · obtain ⟨rfl, hLast⟩ := List.append_inj' hSplit rfl
    cases hLast
    exact hLoad
  · have hSplit' : steps ++ [last] = (before ++ .invalidate :: more) ++ [final] := by
      simpa using hSplit
    exact hSteps before more (List.append_inj' hSplit' rfl).1

/-- After every run the state is above a floor that all loads behind drops are behind. -/
theorem run_above (steps : List (Step α)) :
    ∃ floor, Above floor (start.run steps) ∧
      ∀ load, floor ≤ load → StartedAfterDrops steps load := by
  induction steps using List.reverseRecOn with
  | nil =>
      refine ⟨0, ⟨Nat.le_refl _, nofun, nofun⟩, ?_⟩
      intro load _ before after hSplit
      simp at hSplit
  | append_singleton steps last ih =>
      obtain ⟨floor, above, hFloor⟩ := ih
      rw [run_append]
      refine ⟨_, above.step last, fun load hLoad => ?_⟩
      have hOld : floor ≤ load := by
        have hBound := above.floor_le
        cases last <;> simp only [floorAfter] at hLoad <;> omega
      exact (hFloor load hOld).append hLoad

/-! ### Which loads answer a caller -/

/-- A caller that has to do with certain loads only: it waits for one, or has the outcome of one. -/
def Caller.ServedBy (flight : SingleFlight α) (eligible : Nat → Prop) : Caller α → Prop
  | .waiting load => eligible load
  | .answered outcome => ∃ load, eligible load ∧ flight.loads[load]? = some (.ended outcome)
  | .cancelled => True

theorem Caller.ServedBy.mono {flight : SingleFlight α} {eligible eligible' : Nat → Prop}
    {caller : Caller α} (served : caller.ServedBy flight eligible)
    (hEligible : ∀ load, eligible load → eligible' load) : caller.ServedBy flight eligible' := by
  cases caller with
  | waiting load => exact hEligible load served
  | answered outcome =>
      obtain ⟨load, hLoad, hEnded⟩ := served
      exact ⟨load, hEligible load hLoad, hEnded⟩
  | cancelled => trivial

/-- A caller that is served stays served by the same loads in later states. -/
theorem Caller.ServedBy.later {flight later : SingleFlight α} {eligible : Nat → Prop}
    {caller caller' : Caller α} (served : caller.ServedBy flight eligible)
    (hLater : Later flight later) (becomes : caller.Becomes later.loads caller') :
    caller'.ServedBy later eligible := by
  cases becomes with
  | same =>
      cases caller with
      | waiting load => exact served
      | answered outcome =>
          obtain ⟨load, hLoad, hEnded⟩ := served
          exact ⟨load, hLoad, hLater.ended load outcome hEnded⟩
      | cancelled => trivial
  | answered hEnded => exact ⟨_, served, hEnded⟩
  | cancelled => trivial

/-- A load that a caller may be answered by: one that is above a floor and there already. -/
def Eligible (floor : Nat) (flight : SingleFlight α) (load : Nat) : Prop :=
  floor ≤ load ∧ load < flight.loads.length

/-- A new caller is the only one, and has to do with the current load or the one that is kept. -/
theorem Calls.served {floor : Nat} {flight flight' : SingleFlight α} (calls : Calls flight flight')
    (above : Above floor flight) :
    ∃ caller, flight'.callers = flight.callers ++ [caller] ∧
      caller.ServedBy flight' (Eligible floor flight') := by
  cases calls with
  | kept hKept =>
      obtain ⟨_, load, hLength, hFloor, hEnded⟩ := above.kept _ hKept
      exact ⟨_, rfl, load, ⟨hFloor, Nat.lt_of_lt_of_eq (Nat.lt_succ_self _) hLength.symm⟩, hEnded⟩
  | starts hKept hCurrent =>
      refine ⟨_, rfl, above.floor_le, ?_⟩
      rw [List.length_append]
      exact Nat.lt_succ_self _
  | @takes load outcome hKept hCurrent hEnded =>
      obtain ⟨_, hLength, hFloor⟩ := above.current _ hCurrent
      refine ⟨.answered outcome, congrArg (· ++ _) (settle_callers flight _), load,
        ⟨hFloor, ?_⟩, ?_⟩
      · rw [addCaller, settle_loads, hLength]
        exact Nat.lt_succ_self _
      · rw [addCaller, settle_loads, hEnded]
  | joins hKept hCurrent hRuns =>
      obtain ⟨_, hLength, hFloor⟩ := above.current _ hCurrent
      exact ⟨_, rfl, hFloor, Nat.lt_of_lt_of_eq (Nat.lt_succ_self _) hLength.symm⟩

/-- Those who come at once have to do with loads above the floor that are there when all have
come. -/
theorem callMany_served {floor : Nat} {flight : SingleFlight α} (above : Above floor flight)
    (count place : Nat) (caller : Caller α) (hNew : flight.callers.length ≤ place)
    (hCaller : (flight.callMany count).callers[place]? = some caller) :
    caller.ServedBy (flight.callMany count) (Eligible floor (flight.callMany count)) := by
  induction count generalizing flight with
  | zero =>
      have hPlace := (List.getElem?_eq_some_iff.1 hCaller).1
      exact absurd hPlace (Nat.not_lt.2 hNew)
  | succ count ih =>
      have calls := call_calls flight
      obtain ⟨first, hFirst, served⟩ := calls.served above
      rcases Nat.eq_or_lt_of_le hNew with hPlace | hPlace
      · -- the first of them: the others only move it on
        have hLater := callMany_later flight.call count
        have hOld : flight.call.callers[place]? = some first := by
          rw [hFirst, ← hPlace, List.getElem?_concat_length]
        obtain ⟨moved, hMoved, becomes⟩ := hLater.callers place first hOld
        have hSame : moved = caller := by
          have hFound : (flight.call.callMany count).callers[place]? = some caller := hCaller
          rw [hMoved] at hFound
          exact Option.some.inj hFound
        rw [← hSame]
        exact (served.later hLater becomes).mono fun load hLoad =>
          ⟨hLoad.1, Nat.lt_of_lt_of_le hLoad.2 hLater.length_le⟩
      · exact ih (calls.above above) (by rw [hFirst, List.length_append]; exact hPlace) hCaller

/-- A caller came in a step of a run, after some steps before it. -/
def CameIn (before : List (Step α)) (count place : Nat) : Prop :=
  (start.run before).callers.length ≤ place ∧
    place < (start.run (before ++ [.call count])).callers.length

/-- The loads that were there when the callers of a step had come, and that were started after each
time the value had been dropped until then. -/
def FreshAt (before : List (Step α)) (count load : Nat) : Prop :=
  StartedAfterDrops before load ∧ load < (start.run (before ++ [.call count])).loads.length

/-- Every caller of a run came in one of its steps, and has to do with loads only that were fresh
then. -/
theorem run_served (steps : List (Step α)) (place : Nat) (caller : Caller α)
    (hCaller : (start.run steps).callers[place]? = some caller) :
    ∃ before count after, steps = before ++ .call count :: after ∧ CameIn before count place ∧
      caller.ServedBy (start.run steps) (FreshAt before count) := by
  induction steps using List.reverseRecOn generalizing caller with
  | nil => simp [run, start] at hCaller
  | append_singleton steps last ih =>
      have hLater := step_later (start.run steps) last
      rw [run_append] at hCaller ⊢
      by_cases hOld : place < (start.run steps).callers.length
      · obtain ⟨before, count, after, hSteps, came, served⟩ :=
          ih _ (List.getElem?_eq_getElem hOld)
        obtain ⟨moved, hMoved, becomes⟩ := hLater.callers place _ (List.getElem?_eq_getElem hOld)
        have hSame : moved = caller := Option.some.inj (hMoved.symm.trans hCaller)
        subst hSame
        exact ⟨before, count, after ++ [last], by simp [hSteps], came, served.later hLater becomes⟩
      · -- only callers are added, and only by a step in which they come
        have hPlace := (List.getElem?_eq_some_iff.1 hCaller).1
        have hNew : (start.run steps).callers.length ≤ place := Nat.not_lt.1 hOld
        cases last with
        | call count =>
            obtain ⟨floor, above, hFloor⟩ := run_above steps
            have served := callMany_served above count place caller hNew hCaller
            refine ⟨steps, count, [], rfl, ⟨hNew, ?_⟩, ?_⟩
            · rw [run_append]
              exact hPlace
            · refine served.mono fun load hLoad => ⟨hFloor load hLoad.1, ?_⟩
              rw [run_append]
              exact hLoad.2
        | finish load outcome =>
            rw [SingleFlight.step, (finish_finishes _ _ _).callers_length] at hPlace
            exact absurd hPlace hOld
        | cancel gone =>
            rw [SingleFlight.step, cancel_callers_length] at hPlace
            exact absurd hPlace hOld
        | invalidate => exact absurd hPlace hOld

/-! ### How many loads there are -/

/-- Whether a load that is still to come is called for already: nothing is kept, and there is no
current load or one that failed unnoticed. -/
def awaitsLoad (flight : SingleFlight α) : Bool :=
  match flight.kept, flight.current with
  | none, none => true
  | none, some load => (flight.loads[load]?).any Load.hasFailed
  | some _, _ => false

/-- The loads so far, and the one that is called for, are accounted for by the first one, the drops
and the failures. -/
def Counted (drops : Nat) (flight : SingleFlight α) : Prop :=
  flight.loads.length + flight.awaitsLoad.toNat ≤ 1 + drops + flight.loads.countP Load.hasFailed

/-- A call adds a load just if one was called for. -/
theorem Calls.counted {drops : Nat} {flight flight' : SingleFlight α}
    (calls : Calls flight flight') (counted : Counted drops flight) : Counted drops flight' := by
  unfold Counted at counted ⊢
  cases calls with
  | kept hKept => exact counted
  | starts hKept hCurrent =>
      have hBefore : flight.awaitsLoad = true := by simp [awaitsLoad, hKept, hCurrent]
      simp only [hBefore, Bool.toNat_true] at counted
      simp only [awaitsLoad, hKept, List.length_append, List.length_singleton,
        List.getElem?_concat_length, Option.any_some, List.countP_append, List.countP_singleton,
        Load.hasFailed, Bool.toNat_false]
      omega
  | @takes load outcome hKept hCurrent hEnded =>
      cases outcome with
      | value value =>
          simp only [addCaller, settle, awaitsLoad, Bool.toNat_false]
          omega
      | failure message =>
          have hBefore : flight.awaitsLoad = true := by
            simp [awaitsLoad, hKept, hCurrent, hEnded, Load.hasFailed]
          have hAfter : ((flight.settle (.failure message)).addCaller
              (.answered (.failure message))).awaitsLoad = true := by
            simp [addCaller, settle, awaitsLoad, hKept]
          rw [hAfter, ← hBefore]
          exact counted
  | joins hKept hCurrent hRuns => exact counted

theorem callMany_counted {drops : Nat} {flight : SingleFlight α} (counted : Counted drops flight)
    (count : Nat) : Counted drops (flight.callMany count) := by
  induction count generalizing flight with
  | zero => exact counted
  | succ count ih => exact ih ((call_calls flight).counted counted)

/-- The end of a load that runs is one more failure, or none. -/
theorem countP_hasFailed_set {loads : List (Load α)} {load : Nat}
    (hRuns : loads[load]? = some .running) (outcome : Outcome α) :
    (loads.set load (.ended outcome)).countP Load.hasFailed =
      loads.countP Load.hasFailed + (Load.hasFailed (.ended outcome)).toNat := by
  obtain ⟨hLength, hLoad⟩ := List.getElem?_eq_some_iff.1 hRuns
  rw [List.countP_set hLength, hLoad]
  cases outcome <;> simp [Load.hasFailed]

/-- A load that ends with a value calls for no other one. -/
theorem awaitsLoad_of_value {flight : SingleFlight α} {load : Nat} (value : α)
    (hRuns : flight.loads[load]? = some .running) :
    ({ flight with loads := flight.loads.set load (.ended (.value value)) } :
      SingleFlight α).awaitsLoad = flight.awaitsLoad := by
  obtain ⟨kept, current, loads, callers⟩ := flight
  cases kept with
  | some kept => rfl
  | none =>
      cases current with
      | none => rfl
      | some other =>
          by_cases hOther : load = other
          · subst hOther
            have hLength := (List.getElem?_eq_some_iff.1 hRuns).1
            simp only at hRuns hLength
            simp [awaitsLoad, List.getElem?_set_self hLength, hRuns, Load.hasFailed]
          · simp [awaitsLoad, List.getElem?_set_ne hOther]

/-- A load that ends with a value calls for no other. One that fails makes room for another. -/
theorem Finishes.counted {drops : Nat} {flight flight' : SingleFlight α} {load : Nat}
    {outcome : Outcome α} (finishes : Finishes flight load outcome flight')
    (counted : Counted drops flight) : Counted drops flight' := by
  unfold Counted at counted ⊢
  have hAtMost := Bool.toNat_le flight'.awaitsLoad
  cases finishes with
  | idle => exact counted
  | settled hRuns hCurrent =>
      have hCount := countP_hasFailed_set hRuns outcome
      cases outcome with
      | value value =>
          simp only [settle, awaitsLoad, Bool.toNat_false, List.length_set, hCount]
          omega
      | failure message =>
          have hFailed : (Load.hasFailed (.ended (.failure message) : Load α)) = true := rfl
          simp only [settle, List.length_set, hCount, hFailed, Bool.toNat_true] at hAtMost ⊢
          omega
  | unnoticed hRuns =>
      have hCount := countP_hasFailed_set hRuns outcome
      cases outcome with
      | value value =>
          have hAwaits := awaitsLoad_of_value value hRuns
          have hFailed : (Load.hasFailed (.ended (.value value) : Load α)) = false := rfl
          simp only [awaitsLoad] at hAwaits counted ⊢
          simp only [List.length_set, hCount, hAwaits, hFailed, Bool.toNat_false]
          exact counted
      | failure message =>
          have hFailed : (Load.hasFailed (.ended (.failure message) : Load α)) = true := rfl
          simp only [List.length_set, hCount, hFailed, Bool.toNat_true] at hAtMost ⊢
          omega

/-- A step adds at most one load to those accounted for, and a drop is counted when it makes room
for it. -/
theorem Counted.step {drops : Nat} {flight : SingleFlight α} (counted : Counted drops flight)
    (step : Step α) : Counted (drops + step.isDrop.toNat) (flight.step step) := by
  cases step with
  | call count => exact callMany_counted counted count
  | finish load outcome => exact (finish_finishes flight load outcome).counted counted
  | cancel gone =>
      change Counted drops (flight.cancel gone)
      unfold cancel
      split <;> exact counted
  | invalidate =>
      have hLoads : flight.loads.length ≤ 1 + drops + flight.loads.countP Load.hasFailed :=
        Nat.le_trans (Nat.le_add_right _ _) counted
      change flight.loads.length + 1 ≤ 1 + (drops + 1) + flight.loads.countP Load.hasFailed
      omega

/-- In a run there are no more loads than drops and failures allow, one at the start included. -/
theorem run_counted (steps : List (Step α)) :
    Counted (steps.countP Step.isDrop) (start.run steps) := by
  induction steps using List.reverseRecOn with
  | nil => exact Nat.le_refl _
  | append_singleton steps last ih =>
      rw [run_append, List.countP_append, List.countP_singleton]
      have hStep := ih.step last
      cases last <;> exact hStep

/-! ### Runs -/

/-- Single flight over whole runs. A value that is kept is the one that the last load ended with, no
load is current then, and that load was started after the value had last been dropped. A caller with
an answer came in one step of the run, and has the outcome of a load that was there by then and had
not been dropped before. And there is one load at most, but for one more for each drop and for each
failed load. -/
theorem run_safe (steps : List (Step α)) :
    (∀ value, (start.run steps).kept = some value →
      (start.run steps).current = none ∧
        ∃ load, (start.run steps).loads.length = load + 1 ∧
          (start.run steps).loads[load]? = some (.ended (.value value)) ∧
          StartedAfterDrops steps load) ∧
    (∀ (place : Nat) (outcome : Outcome α),
      (start.run steps).callers[place]? = some (.answered outcome) →
        ∃ before count after, steps = before ++ .call count :: after ∧ CameIn before count place ∧
          ∃ load, FreshAt before count load ∧
            (start.run steps).loads[load]? = some (.ended outcome)) ∧
    (start.run steps).loads.length ≤
      1 + steps.countP Step.isDrop + (start.run steps).loads.countP Load.hasFailed := by
  refine ⟨?_, ?_, ?_⟩
  · intro value hValue
    obtain ⟨floor, above, hFloor⟩ := run_above steps
    obtain ⟨hCurrent, load, hLength, hLoad, hEnded⟩ := above.kept value hValue
    exact ⟨hCurrent, load, hLength, hEnded, hFloor load hLoad⟩
  · intro place outcome hAnswered
    obtain ⟨before, count, after, hSteps, came, load, hFresh, hEnded⟩ :=
      run_served steps place _ hAnswered
    exact ⟨before, count, after, hSteps, came, load, hFresh, hEnded⟩
  · exact Nat.le_trans (Nat.le_add_right _ _) (run_counted steps)

/-- A load that is dropped while it runs, and ends after the one that was started in its place,
answers the caller that came before the drop and nobody else. -/
theorem run_safe_sample :
    let steps : List (Step Nat) :=
      [.call 1, .invalidate, .call 1, .finish 1 (.value 7), .finish 0 (.value 5), .call 1]
    (start.run steps).callers =
        [.answered (.value 5), .answered (.value 7), .answered (.value 7)] ∧
      (start.run steps).kept = some 7 ∧ (start.run steps).current = none ∧
      (∃ load, (start.run steps).loads.length = load + 1 ∧
        (start.run steps).loads[load]? = some (.ended (.value 7)) ∧
        StartedAfterDrops steps load) ∧
      ∃ before count after, steps = before ++ .call count :: after ∧ CameIn before count 2 ∧
        ∃ load, FreshAt before count load ∧
          (start.run steps).loads[load]? = some (.ended (.value 7)) := by
  intro steps
  obtain ⟨hKept, hAnswered, _⟩ := run_safe steps
  have hValue : (start.run steps).kept = some 7 := rfl
  have hCaller : (start.run steps).callers[2]? = some (.answered (.value 7)) := rfl
  exact ⟨rfl, hValue, (hKept 7 hValue).1, (hKept 7 hValue).2, hAnswered 2 _ hCaller⟩

end QuestScript.SingleFlight

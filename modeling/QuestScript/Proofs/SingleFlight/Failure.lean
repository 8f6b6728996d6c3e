import QuestScript.Proofs.SingleFlight.Safety
/-!
Whom the failure of a load reaches. Each caller has to do with one load from the moment it comes. A
failure is forgotten by the callers who are told of it, so it reaches nobody who comes later, with one
exception: a load that fails when all its callers are gone stays the current one, and the next caller,
if one comes before the value is dropped, is given its failure.

Nothing is said here about loads that are still running when a caller comes: such a caller joins the
load and shares its outcome, a failure or not.
-/

namespace QuestScript.SingleFlight

variable {α : Type} {flight flight' : SingleFlight α} {floor load : Nat} {message : String}

/-! ### The load of each caller -/

/-- The load that a caller who comes next has to do with: the last one if its value is kept, else the
current one, else the one that the caller starts. -/
def nextLoad (flight : SingleFlight α) : Nat :=
  match flight.kept, flight.current with
  | some _, _ => flight.loads.length - 1
  | none, some load => load
  | none, none => flight.loads.length

/-- The loads of some callers who come at once, one for each of them. -/
def nextLoads (flight : SingleFlight α) : Nat → List Nat
  | 0 => []
  | count + 1 => flight.nextLoad :: flight.call.nextLoads count

def stepLoads (flight : SingleFlight α) : Step α → List Nat
  | .call count => flight.nextLoads count
  | .finish _ _ => []
  | .cancel _ => []
  | .invalidate => []

/-- The loads of the callers who come in some steps, one for each caller and in their order. -/
def runLoads (flight : SingleFlight α) : List (Step α) → List Nat
  | [] => []
  | step :: steps => flight.stepLoads step ++ (flight.step step).runLoads steps

/-- The loads of the callers of two runs in turn are those of the first, then those of the second.
-/
theorem runLoads_append (flight : SingleFlight α) (before after : List (Step α)) :
    flight.runLoads (before ++ after) =
      flight.runLoads before ++ (flight.run before).runLoads after := by
  induction before generalizing flight with
  | nil => rfl
  | cons step before ih =>
      show flight.stepLoads step ++ (flight.step step).runLoads (before ++ after) = _
      rw [ih, ← List.append_assoc]
      rfl

/-- Every caller so far has to do with the load that a list has at its place, and with no other. -/
def Attributed (flight : SingleFlight α) (loads : List Nat) : Prop :=
  loads.length = flight.callers.length ∧
    ∀ (place load : Nat) (caller : Caller α), loads[place]? = some load →
      flight.callers[place]? = some caller → caller.ServedBy flight (· = load)

/-- What comes later changes nothing about the callers who are there. -/
theorem Attributed.later {loads : List Nat} (attributed : Attributed flight loads)
    (hLater : Later flight flight') (hLength : flight'.callers.length = flight.callers.length) :
    Attributed flight' loads := by
  constructor
  · exact attributed.1.trans hLength.symm
  · intro place load caller hLoad hCaller
    have hPlace : place < flight.callers.length := by
      rw [← attributed.1]
      exact (List.getElem?_eq_some_iff.1 hLoad).1
    have hOld := List.getElem?_eq_getElem hPlace
    obtain ⟨moved, hMoved, becomes⟩ := hLater.callers place _ hOld
    rw [hCaller] at hMoved
    cases hMoved
    exact (attributed.2 place load _ hLoad hOld).later hLater becomes

/-- A caller who comes has to do with the next load. -/
theorem Calls.servedByNext (calls : Calls flight flight') (above : Above floor flight) :
    ∃ caller, flight'.callers = flight.callers ++ [caller] ∧
      caller.ServedBy flight' (· = flight.nextLoad) := by
  cases calls with
  | kept hKept =>
      obtain ⟨_, load, hLength, _, hEnded⟩ := above.kept _ hKept
      have hNext : load = flight.nextLoad := by simp [nextLoad, hKept, hLength]
      exact ⟨_, rfl, load, hNext, hEnded⟩
  | starts hKept hCurrent =>
      have hNext : flight.loads.length = flight.nextLoad := by simp [nextLoad, hKept, hCurrent]
      exact ⟨_, rfl, hNext⟩
  | @takes load outcome hKept hCurrent hEnded =>
      have hNext : load = flight.nextLoad := by simp [nextLoad, hKept, hCurrent]
      apply Exists.intro (.answered outcome)
      constructor
      · exact congrArg (· ++ _) (settle_callers flight outcome)
      · show ∃ load, load = flight.nextLoad ∧ (flight.settle outcome).loads[load]? = _
        rw [settle_loads]
        exact ⟨load, hNext, hEnded⟩
  | @joins load hKept hCurrent hRuns =>
      have hNext : load = flight.nextLoad := by simp [nextLoad, hKept, hCurrent]
      exact ⟨_, rfl, hNext⟩

/-- A new caller has to do with the next load, and everybody else with the load from before. -/
theorem Attributed.call {loads : List Nat} (attributed : Attributed flight loads)
    (above : Above floor flight) : Attributed flight.call (loads ++ [flight.nextLoad]) := by
  have calls := call_calls flight
  obtain ⟨newcomer, hCallers, served⟩ := calls.servedByNext above
  constructor
  · rw [List.length_append, hCallers, List.length_append, attributed.1]
    rfl
  · intro place load caller hLoad hCaller
    rcases Nat.lt_or_ge place loads.length with hOld | hNew
    · have hPlace : place < flight.callers.length := attributed.1 ▸ hOld
      have hBefore := List.getElem?_eq_getElem hPlace
      obtain ⟨moved, hMoved, becomes⟩ := calls.later.callers place _ hBefore
      rw [hCaller] at hMoved
      cases hMoved
      rw [List.getElem?_append_left hOld] at hLoad
      exact (attributed.2 place load _ hLoad hBefore).later calls.later becomes
    · -- only the newcomer stands here
      rw [List.getElem?_append_right hNew, List.getElem?_singleton] at hLoad
      rw [hCallers, List.getElem?_append_right (attributed.1 ▸ hNew), ← attributed.1,
        List.getElem?_singleton] at hCaller
      split at hLoad
      · next hPlace =>
          rw [if_pos hPlace] at hCaller
          cases hLoad
          cases hCaller
          exact served
      · cases hLoad

/-- Callers who come at once have to do with the loads listed for them. -/
theorem Attributed.callMany {loads : List Nat} (attributed : Attributed flight loads)
    (above : Above floor flight) (count : Nat) :
    Attributed (flight.callMany count) (loads ++ flight.nextLoads count) := by
  induction count generalizing flight loads with
  | zero =>
      rw [nextLoads, List.append_nil]
      exact attributed
  | succ count ih =>
      have hRest := ih (attributed.call above) ((call_calls flight).above above)
      rw [List.append_assoc] at hRest
      exact hRest

/-- One step keeps the callers with their loads. One case for each kind of step. -/
theorem Attributed.step {loads : List Nat} (attributed : Attributed flight loads)
    (above : Above floor flight) (step : Step α) :
    Attributed (flight.step step) (loads ++ flight.stepLoads step) := by
  cases step with
  | call count => exact attributed.callMany above count
  | finish load outcome =>
      rw [stepLoads, List.append_nil]
      have finishes := finish_finishes flight load outcome
      exact attributed.later finishes.later finishes.callers_length
  | cancel gone =>
      rw [stepLoads, List.append_nil]
      exact attributed.later (cancel_later flight gone) (cancel_callers_length flight gone)
  | invalidate =>
      rw [stepLoads, List.append_nil]
      exact attributed.later (step_later flight .invalidate) rfl

/-- In every run each caller has to do with its own load only. -/
theorem run_attributed (steps : List (Step α)) :
    Attributed (start.run steps) (start.runLoads steps) := by
  induction steps using List.reverseRecOn with
  | nil => exact ⟨rfl, fun place load caller hLoad => by simp [runLoads] at hLoad⟩
  | append_singleton steps last ih =>
      obtain ⟨floor, above, _⟩ := run_above steps
      rw [run_append, runLoads_append]
      have hLast : (start.run steps).runLoads [last] = (start.run steps).stepLoads last :=
        List.append_nil _
      rw [hLast]
      exact ih.step above last

/-! ### Failures that are forgotten -/

/-- The current load after a call is the one from before or a new one. -/
theorem Calls.current_of (calls : Calls flight flight') (hCurrent : flight'.current = some load) :
    flight.current = some load ∨ flight.loads.length ≤ load := by
  cases calls with
  | kept hKept => exact Or.inl hCurrent
  | starts hKept hNone =>
      cases hCurrent
      exact Or.inr (Nat.le_refl _)
  | takes hKept hOld hEnded =>
      rw [addCaller, settle_current] at hCurrent
      cases hCurrent
  | joins hKept hOld hRuns => exact Or.inl hCurrent

theorem callMany_current_of {count : Nat} (hCurrent : (flight.callMany count).current = some load) :
    flight.current = some load ∨ flight.loads.length ≤ load := by
  induction count generalizing flight with
  | zero => exact Or.inl hCurrent
  | succ count ih =>
      have calls := call_calls flight
      rcases ih hCurrent with hFirst | hLength
      · exact calls.current_of hFirst
      · exact Or.inr (Nat.le_trans calls.later.length_le hLength)

/-- The load that is current after a step was current before it, or is new. -/
theorem step_current_of {step : Step α} (hCurrent : (flight.step step).current = some load) :
    flight.current = some load ∨ flight.loads.length ≤ load := by
  cases step with
  | call count => exact callMany_current_of hCurrent
  | finish ended outcome =>
      apply Or.inl
      have finishes := finish_finishes flight ended outcome
      change (flight.finish ended outcome).current = some load at hCurrent
      generalize flight.finish ended outcome = later at finishes hCurrent
      cases finishes with
      | idle => exact hCurrent
      | settled hRuns hOld => simp at hCurrent
      | unnoticed hRuns => exact hCurrent
  | cancel gone =>
      apply Or.inl
      change (flight.cancel gone).current = some load at hCurrent
      unfold cancel at hCurrent
      split at hCurrent <;> exact hCurrent
  | invalidate => cases hCurrent

/-- A load that failed and that nobody who comes will be told of: it is not the current one. -/
structure Forgotten (load : Nat) (message : String) (flight : SingleFlight α) : Prop where
  failed : flight.loads[load]? = some (.ended (.failure message))
  notCurrent : flight.current ≠ some load

/-- A forgotten load has been started. -/
theorem Forgotten.length_lt (forgotten : Forgotten load message flight) :
    load < flight.loads.length :=
  (List.getElem?_eq_some_iff.1 forgotten.failed).1

/-- Nobody who comes is told of a forgotten load. -/
theorem Forgotten.call (forgotten : Forgotten load message flight) :
    Forgotten load message flight.call := by
  have calls := call_calls flight
  constructor
  · exact calls.later.ended load _ forgotten.failed
  · intro hCurrent
    rcases calls.current_of hCurrent with hOld | hNew
    · exact forgotten.notCurrent hOld
    · exact absurd forgotten.length_lt (Nat.not_lt.2 hNew)

/-- A load that is forgotten stays so, whatever happens. -/
theorem Forgotten.step (forgotten : Forgotten load message flight) (step : Step α) :
    Forgotten load message (flight.step step) := by
  constructor
  · exact (step_later flight step).ended load _ forgotten.failed
  · intro hCurrent
    rcases step_current_of hCurrent with hOld | hNew
    · exact forgotten.notCurrent hOld
    · exact absurd forgotten.length_lt (Nat.not_lt.2 hNew)

/-- A load that is forgotten is not the next one: a value that is kept is not its own. -/
theorem Forgotten.nextLoad_ne (forgotten : Forgotten load message flight)
    (above : Above floor flight) : flight.nextLoad ≠ load := by
  intro hNext
  unfold nextLoad at hNext
  split at hNext
  · next hKept =>
      obtain ⟨_, last, hLength, _, hEnded⟩ := above.kept _ hKept
      have hLast : last = load := by omega
      rw [hLast, forgotten.failed] at hEnded
      cases hEnded
  · next hCurrent =>
      rw [hNext] at hCurrent
      exact forgotten.notCurrent hCurrent
  · have hLength := forgotten.length_lt
    omega

/-- Callers who come have to do with other loads than a forgotten one. -/
theorem Forgotten.notMem_nextLoads (forgotten : Forgotten load message flight)
    (above : Above floor flight) (count : Nat) : load ∉ flight.nextLoads count := by
  induction count generalizing flight with
  | zero => exact List.not_mem_nil
  | succ count ih =>
      rw [nextLoads, List.mem_cons, not_or]
      constructor
      · exact Ne.symm (forgotten.nextLoad_ne above)
      · exact ih forgotten.call ((call_calls flight).above above)

/-- Nobody who comes has to do with a load that is forgotten. -/
theorem Forgotten.notMem_runLoads (forgotten : Forgotten load message flight)
    (above : Above floor flight) (steps : List (Step α)) : load ∉ flight.runLoads steps := by
  induction steps generalizing flight floor with
  | nil => exact List.not_mem_nil
  | cons step steps ih =>
      rw [runLoads, List.mem_append, not_or]
      constructor
      · cases step with
        | call count => exact forgotten.notMem_nextLoads above count
        | _ => exact List.not_mem_nil
      · exact ih (forgotten.step step) (above.step step)

/-! ### Failures that nobody was told of -/

/-- A load that failed and is still the current one, so that the next caller will be told of it. -/
structure Lingering (load : Nat) (message : String) (flight : SingleFlight α) : Prop where
  failed : flight.loads[load]? = some (.ended (.failure message))
  current : flight.current = some load

/-- Whether nobody comes in a step and the value is not dropped. -/
def Step.isQuiet : Step α → Bool
  | .call count => count == 0
  | .invalidate => false
  | _ => true

theorem Lingering.kept_eq_none (lingering : Lingering load message flight)
    (above : Above floor flight) : flight.kept = none :=
  (above.current load lingering.current).1

/-- The next caller has to do with the load that lingers. -/
theorem Lingering.nextLoad_eq (lingering : Lingering load message flight)
    (above : Above floor flight) : flight.nextLoad = load := by
  simp [nextLoad, lingering.kept_eq_none above, lingering.current]

/-- The caller who is told of the failure has it forgotten. -/
theorem Lingering.call_eq (lingering : Lingering load message flight)
    (above : Above floor flight) :
    flight.call = (flight.settle (.failure message)).addCaller (.answered (.failure message)) := by
  simp only [call, lingering.kept_eq_none above, lingering.current, lingering.failed]

/-- A caller takes the failure away: the load is forgotten from then on. -/
theorem Lingering.forgotten_call (lingering : Lingering load message flight)
    (above : Above floor flight) : Forgotten load message flight.call := by
  rw [lingering.call_eq above]
  exact ⟨lingering.failed, nofun⟩

/-- Quiet steps neither tell anyone of the failure nor have it forgotten. -/
theorem Lingering.step (lingering : Lingering load message flight) {step : Step α}
    (hQuiet : step.isQuiet = true) :
    Lingering load message (flight.step step) ∧ flight.stepLoads step = [] := by
  have hFailed := (step_later flight step).ended load _ lingering.failed
  cases step with
  | call count =>
      have hZero : count = 0 := by simpa [Step.isQuiet] using hQuiet
      subst hZero
      exact ⟨lingering, rfl⟩
  | finish ended outcome =>
      refine ⟨⟨hFailed, ?_⟩, rfl⟩
      have finishes := finish_finishes flight ended outcome
      show (flight.finish ended outcome).current = some load
      generalize flight.finish ended outcome = later at finishes
      cases finishes with
      | idle => exact lingering.current
      | settled hRuns hCurrent =>
          -- the current load does not run any more
          rw [lingering.current] at hCurrent
          cases hCurrent
          rw [lingering.failed] at hRuns
          cases hRuns
      | unnoticed hRuns => exact lingering.current
  | cancel gone =>
      refine ⟨⟨hFailed, ?_⟩, rfl⟩
      show (flight.cancel gone).current = some load
      unfold cancel
      split <;> exact lingering.current
  | invalidate => cases hQuiet

/-- While nobody comes and nothing is dropped, a failed load lingers on and no load is started. -/
theorem Lingering.run (lingering : Lingering load message flight) {steps : List (Step α)}
    (hQuiet : ∀ step ∈ steps, step.isQuiet = true) :
    Lingering load message (flight.run steps) ∧ flight.runLoads steps = [] := by
  induction steps generalizing flight with
  | nil => exact ⟨lingering, rfl⟩
  | cons step steps ih =>
      obtain ⟨hFirst, hRest⟩ := List.forall_mem_cons.1 hQuiet
      obtain ⟨hStep, hNone⟩ := lingering.step hFirst
      obtain ⟨hRun, hNobody⟩ := ih hStep hRest
      refine ⟨hRun, ?_⟩
      rw [runLoads, hNone, hNobody, List.append_nil]

/-- Callers come before the value is dropped. -/
def CallersFirst (steps : List (Step α)) : Prop :=
  ∃ quiet count rest, steps = quiet ++ .call (count + 1) :: rest ∧
    ∀ step ∈ quiet, step.isQuiet = true

/-- A quiet step in front does not matter to whether callers come first. -/
theorem callersFirst_cons_of_quiet {step : Step α} {steps : List (Step α)}
    (hQuiet : step.isQuiet = true) : CallersFirst (step :: steps) ↔ CallersFirst steps := by
  constructor
  · rintro ⟨quiet, count, rest, hSteps, hAll⟩
    cases quiet with
    | nil =>
        cases hSteps
        cases hQuiet
    | cons first quiet =>
        cases hSteps
        exact ⟨quiet, count, rest, rfl, (List.forall_mem_cons.1 hAll).2⟩
  · rintro ⟨quiet, count, rest, rfl, hAll⟩
    exact ⟨step :: quiet, count, rest, rfl, List.forall_mem_cons.2 ⟨hQuiet, hAll⟩⟩

theorem not_callersFirst_invalidate (steps : List (Step α)) :
    ¬ CallersFirst (.invalidate :: steps) := by
  rintro ⟨quiet, count, rest, hSteps, hAll⟩
  cases quiet with
  | nil => cases hSteps
  | cons first quiet =>
      cases hSteps
      cases (List.forall_mem_cons.1 hAll).1

theorem getElem?_ne_of_notMem {loads : List Nat} (hLoad : load ∉ loads) (place : Nat) :
    loads[place]? ≠ some load :=
  fun hPlace => hLoad (List.mem_of_getElem? hPlace)

/-- The first of callers who come together is told of the failure, and nobody after it. -/
theorem Lingering.runLoads_call (lingering : Lingering load message flight)
    (above : Above floor flight) (count : Nat) (steps : List (Step α)) (place : Nat) :
    (flight.runLoads (.call (count + 1) :: steps))[place]? = some load ↔ place = 0 := by
  have hRest := (lingering.forgotten_call above).notMem_runLoads
    ((call_calls flight).above above) (.call count :: steps)
  show (flight.nextLoad :: flight.call.runLoads (.call count :: steps))[place]? = some load ↔ _
  rw [lingering.nextLoad_eq above]
  cases place with
  | zero => simp
  | succ place => simp [getElem?_ne_of_notMem hRest place]

/-- Nobody is told of the failure after the value is dropped. -/
theorem Lingering.runLoads_invalidate (lingering : Lingering load message flight)
    (above : Above floor flight) (steps : List (Step α)) (place : Nat) :
    (flight.runLoads (.invalidate :: steps))[place]? ≠ some load := by
  have hForgotten : Forgotten load message flight.invalidate := ⟨lingering.failed, nofun⟩
  show (flight.invalidate.runLoads steps)[place]? ≠ some load
  exact getElem?_ne_of_notMem (hForgotten.notMem_runLoads (above.step .invalidate) steps) place

/-- While a failed load lingers, the first one who comes has to do with it, if callers come before the
value is dropped. -/
theorem Lingering.runLoads_iff (lingering : Lingering load message flight)
    (above : Above floor flight) (steps : List (Step α)) (place : Nat) :
    (flight.runLoads steps)[place]? = some load ↔ place = 0 ∧ CallersFirst steps := by
  induction steps generalizing flight floor with
  | nil =>
      have hNobody : ¬ CallersFirst ([] : List (Step α)) := by
        rintro ⟨quiet, count, rest, hSteps, _⟩
        simp at hSteps
      simp [runLoads, hNobody]
  | cons step steps ih =>
      cases hQuiet : step.isQuiet with
      | true =>
          obtain ⟨hStep, hNone⟩ := lingering.step hQuiet
          rw [runLoads, hNone, List.nil_append, callersFirst_cons_of_quiet hQuiet,
            ih hStep (above.step step)]
      | false =>
          cases step with
          | call count =>
              cases count with
              | zero => cases hQuiet
              | succ count =>
                  have hFirst : CallersFirst (.call (count + 1) :: steps) :=
                    ⟨[], count, steps, rfl, nofun⟩
                  rw [lingering.runLoads_call above, and_iff_left hFirst]
          | finish ended outcome => cases hQuiet
          | cancel gone => cases hQuiet
          | invalidate =>
              exact iff_of_false (lingering.runLoads_invalidate above steps place) fun first =>
                not_callersFirst_invalidate steps first.2

/-- Of those who come after a load has failed at most the first one has to do with it: if it still
lingers, and callers come before the value is dropped. -/
theorem runLoads_getElem?_iff (hFailed : flight.loads[load]? = some (.ended (.failure message)))
    (above : Above floor flight) (steps : List (Step α)) (place : Nat) :
    (flight.runLoads steps)[place]? = some load ↔
      place = 0 ∧ Lingering load message flight ∧ CallersFirst steps := by
  by_cases hCurrent : flight.current = some load
  · have lingering : Lingering load message flight := ⟨hFailed, hCurrent⟩
    rw [lingering.runLoads_iff above, and_iff_right lingering]
  · have hForgotten : Forgotten load message flight := ⟨hFailed, hCurrent⟩
    have hRest := hForgotten.notMem_runLoads above steps
    exact iff_of_false (getElem?_ne_of_notMem hRest place) fun first => hCurrent first.2.1.current

/-- A load failed when it was the current one and none of its callers was there any more, and since
then nobody came and the value was not dropped. -/
def FailedUnwatched (steps : List (Step α)) (load : Nat) (message : String) : Prop :=
  ∃ earlier quiet, steps = earlier ++ .finish load (.failure message) :: quiet ∧
    (start.run earlier).loads[load]? = some .running ∧
    (start.run earlier).current = some load ∧
    (∀ caller ∈ (start.run earlier).callers, caller.waitsFor load = false) ∧
    ∀ step ∈ quiet, step.isQuiet = true

/-- A load that failed without a caller stays unwatched through a quiet step. -/
theorem FailedUnwatched.append {steps : List (Step α)} {last : Step α}
    (unwatched : FailedUnwatched steps load message) (hQuiet : last.isQuiet = true) :
    FailedUnwatched (steps ++ [last]) load message := by
  obtain ⟨earlier, quiet, rfl, hRuns, hCurrent, hGone, hAll⟩ := unwatched
  refine ⟨earlier, quiet ++ [last], by simp, hRuns, hCurrent, hGone, ?_⟩
  exact List.forall_mem_append.2 ⟨hAll, List.forall_mem_singleton.2 hQuiet⟩

/-- After a call the current load, if there is one, has not ended. -/
theorem call_current_runs (above : Above floor flight) (hCurrent : flight.call.current = some load)
    (outcome : Outcome α) : flight.call.loads[load]? ≠ some (.ended outcome) := by
  have calls := call_calls flight
  generalize flight.call = later at calls hCurrent
  cases calls with
  | kept hKept =>
      have hNone := (above.kept _ hKept).1
      change flight.current = some load at hCurrent
      rw [hNone] at hCurrent
      cases hCurrent
  | starts hKept hNone =>
      cases hCurrent
      simp
  | takes hKept hOld hEnded =>
      rw [addCaller, settle_current] at hCurrent
      cases hCurrent
  | joins hKept hOld hRuns =>
      change flight.current = some load at hCurrent
      rw [hOld] at hCurrent
      cases hCurrent
      exact hRuns outcome

/-- When callers come at once, the load that is current behind them is not one that has ended. -/
theorem callMany_current_runs (above : Above floor flight) {count : Nat}
    (hCurrent : (flight.callMany (count + 1)).current = some load) (outcome : Outcome α) :
    (flight.callMany (count + 1)).loads[load]? ≠ some (.ended outcome) := by
  induction count generalizing flight with
  | zero => exact call_current_runs above hCurrent outcome
  | succ count ih => exact ih ((call_calls flight).above above) hCurrent

/-- A failure lingers after a load has ended if it did before, or if it is the failure of that load
and nobody was waiting for it. -/
theorem lingering_of_finish {ended : Nat} {outcome : Outcome α}
    (lingering : Lingering load message (flight.finish ended outcome)) :
    Lingering load message flight ∨
      ended = load ∧ outcome = .failure message ∧ flight.loads[load]? = some .running ∧
        flight.current = some load ∧ ∀ caller ∈ flight.callers, caller.waitsFor load = false := by
  unfold finish at lingering
  split at lingering
  · next hRuns =>
      obtain ⟨hFailed, hCurrent⟩ := lingering
      simp only at hFailed hCurrent
      split at hFailed
      · next hSettled => simp [hSettled] at hCurrent
      · next hUnsettled =>
          rw [if_neg hUnsettled] at hCurrent
          change flight.current = some load at hCurrent
          by_cases hEnded : ended = load
          · subst hEnded
            rw [List.getElem?_set_self (List.getElem?_eq_some_iff.1 hRuns).1] at hFailed
            cases hFailed
            have hGone : ∀ caller ∈ flight.callers, caller.waitsFor ended = false := by
              simpa [hCurrent] using hUnsettled
            exact Or.inr ⟨rfl, rfl, hRuns, hCurrent, hGone⟩
          · rw [List.getElem?_set_ne hEnded] at hFailed
            exact Or.inl ⟨hFailed, hCurrent⟩
  · exact Or.inl lingering

/-- A load that ends with a failure lingers if nobody waits for it. -/
theorem lingering_finish (hRuns : flight.loads[load]? = some .running)
    (hCurrent : flight.current = some load)
    (hGone : ∀ caller ∈ flight.callers, caller.waitsFor load = false) :
    Lingering load message (flight.finish load (.failure message)) := by
  have hNobody : flight.callers.any (Caller.waitsFor load) = false := by
    simpa using hGone
  simp only [finish, hRuns, hNobody, Bool.false_and, Bool.false_eq_true, if_false]
  exact ⟨List.getElem?_set_self (List.getElem?_eq_some_iff.1 hRuns).1, hCurrent⟩

/-- The failures that linger after a run are those that nobody was told of. -/
theorem lingering_iff (steps : List (Step α)) :
    Lingering load message (start.run steps) ↔ FailedUnwatched steps load message := by
  constructor
  · intro lingering
    induction steps using List.reverseRecOn with
    | nil => cases lingering.current
    | append_singleton steps last ih =>
        obtain ⟨floor, above, _⟩ := run_above steps
        rw [run_append] at lingering
        cases last with
        | call count =>
            cases count with
            | zero => exact (ih lingering).append rfl
            | succ count =>
                have hRuns := callMany_current_runs above lingering.current (.failure message)
                exact absurd lingering.failed hRuns
        | finish ended outcome =>
            rcases lingering_of_finish lingering with hOld | ⟨rfl, rfl, hRuns, hCurrent, hGone⟩
            · exact (ih hOld).append rfl
            · exact ⟨steps, [], rfl, hRuns, hCurrent, hGone, nofun⟩
        | cancel gone =>
            have hOld : Lingering load message (start.run steps) := by
              change Lingering load message ((start.run steps).cancel gone) at lingering
              unfold cancel at lingering
              split at lingering <;> exact ⟨lingering.failed, lingering.current⟩
            exact (ih hOld).append rfl
        | invalidate => cases lingering.current
  · rintro ⟨earlier, quiet, rfl, hRuns, hCurrent, hGone, hQuiet⟩
    have hFirst : Lingering load message ((start.run earlier).step (.finish load (.failure message))) :=
      lingering_finish hRuns hCurrent hGone
    have hRun : start.run (earlier ++ .finish load (.failure message) :: quiet) =
        ((start.run earlier).step (.finish load (.failure message))).run quiet :=
      List.foldl_append
    rw [hRun]
    exact (hFirst.run hQuiet).1

/-! ### Whom a failure reaches -/

/-- A caller of a run has been answered by a load: the load is its own, and the answer is the outcome of
the load. -/
def AnsweredBy (steps : List (Step α)) (place load : Nat) (outcome : Outcome α) : Prop :=
  (start.runLoads steps)[place]? = some load ∧
    (start.run steps).callers[place]? = some (.answered outcome) ∧
    (start.run steps).loads[load]? = some (.ended outcome)

/-- Every run leads to a later state. -/
theorem run_later (flight : SingleFlight α) (steps : List (Step α)) :
    Later flight (flight.run steps) := by
  induction steps generalizing flight with
  | nil => exact Later.refl flight
  | cons step steps ih => exact (step_later flight step).trans (ih (flight.step step))

/-- The caller who is told of a failure that lingers has it as its answer for good. -/
theorem Lingering.answers {before after : List (Step α)}
    (lingering : Lingering load message (start.run before)) (hFirst : CallersFirst after) :
    (start.run (before ++ after)).callers[(start.run before).callers.length]? =
      some (.answered (.failure message)) := by
  obtain ⟨quiet, count, rest, rfl, hQuiet⟩ := hFirst
  obtain ⟨hLingers, hNobody⟩ := lingering.run hQuiet
  have hQuietRun : (start.run before).run quiet = start.run (before ++ quiet) :=
    List.foldl_append.symm
  rw [hQuietRun] at hLingers
  have hLength : (start.run (before ++ quiet)).callers.length =
      (start.run before).callers.length := by
    rw [← (run_attributed _).1, ← (run_attributed _).1, runLoads_append, hNobody, List.append_nil]
  obtain ⟨floor, above, _⟩ := run_above (before ++ quiet)
  have hTold : (start.run (before ++ quiet)).call.callers[(start.run before).callers.length]? =
      some (.answered (.failure message)) := by
    rw [hLingers.call_eq above, addCaller, settle_callers, ← hLength, List.getElem?_concat_length]
  have hRun : start.run (before ++ (quiet ++ .call (count + 1) :: rest)) =
      (start.run (before ++ quiet)).call.run (.call count :: rest) := by
    rw [← List.append_assoc]
    exact List.foldl_append
  obtain ⟨caller, hCaller, becomes⟩ := (run_later _ (.call count :: rest)).callers _ _ hTold
  rw [hRun, hCaller]
  cases becomes
  rfl

/-- A caller who comes after a load has failed has to do with it exactly if nobody came between. -/
theorem runLoads_late_iff {before : List (Step α)}
    (hFailed : (start.run before).loads[load]? = some (.ended (.failure message)))
    (after : List (Step α)) {place : Nat} (hLate : (start.run before).callers.length ≤ place) :
    (start.runLoads (before ++ after))[place]? = some load ↔
      place = (start.run before).callers.length ∧ FailedUnwatched before load message ∧
        CallersFirst after := by
  obtain ⟨floor, above, _⟩ := run_above before
  have hBefore : (start.runLoads before).length = (start.run before).callers.length :=
    (run_attributed before).1
  rw [runLoads_append, List.getElem?_append_right (hBefore ▸ hLate), hBefore,
    runLoads_getElem?_iff hFailed above, ← lingering_iff]
  exact and_congr_left fun _ => ⟨fun hFirst => by omega, fun hFirst => by omega⟩

/-- Whom the failure of a load reaches among those who come after it. The caller who is answered by the
load is the first to come; there is one only if all callers of the load were gone when it failed, and
if callers come before the value is dropped. All others have to do with another load: they wait for it
or have its outcome, unless they are gone. -/
theorem run_failure_reaches_iff (before after : List (Step α)) (load : Nat) (message : String)
    (hFailed : (start.run before).loads[load]? = some (.ended (.failure message))) (place : Nat)
    (hLate : (start.run before).callers.length ≤ place) :
    (AnsweredBy (before ++ after) place load (.failure message) ↔
      place = (start.run before).callers.length ∧ FailedUnwatched before load message ∧
        CallersFirst after) ∧
    ∀ caller, (start.run (before ++ after)).callers[place]? = some caller →
      AnsweredBy (before ++ after) place load (.failure message) ∨
        ∃ other, other ≠ load ∧ caller.ServedBy (start.run (before ++ after)) (· = other) := by
  have hPlace := runLoads_late_iff hFailed after hLate
  have hAnswered : AnsweredBy (before ++ after) place load (.failure message) ↔
      place = (start.run before).callers.length ∧ FailedUnwatched before load message ∧
        CallersFirst after := by
    refine ⟨fun answered => hPlace.1 answered.1, fun reached => ?_⟩
    obtain ⟨rfl, unwatched, hAfter⟩ := reached
    have hRun : start.run (before ++ after) = (start.run before).run after := List.foldl_append
    have hEnded := (run_later (start.run before) after).ended load _ hFailed
    rw [← hRun] at hEnded
    have hTold := (lingering_iff before).2 unwatched
    exact ⟨hPlace.2 ⟨rfl, unwatched, hAfter⟩, hTold.answers hAfter, hEnded⟩
  refine ⟨hAnswered, fun caller hCaller => ?_⟩
  have hLoads := run_attributed (before ++ after)
  have hLength : place < (start.runLoads (before ++ after)).length := by
    rw [hLoads.1]
    exact (List.getElem?_eq_some_iff.1 hCaller).1
  have hOwn := List.getElem?_eq_getElem hLength
  by_cases hSame : (start.runLoads (before ++ after))[place] = load
  · rw [hSame] at hOwn
    exact Or.inl (hAnswered.2 (hPlace.1 hOwn))
  · exact Or.inr ⟨_, hSame, hLoads.2 place _ caller hOwn hCaller⟩

/-- A load fails after its only caller has gone. Of the two callers who come together after that the
first one is told of the failure, and the second one starts another load. -/
theorem run_failure_reaches_iff_sample :
    let before : List (Step Nat) := [.call 1, .cancel 0, .finish 0 (.failure "disk on fire")]
    (start.run before).loads[0]? = some (.ended (.failure "disk on fire")) ∧
      (start.run before).callers.length ≤ 1 ∧
      AnsweredBy (before ++ [.call 2]) 1 0 (.failure "disk on fire") ∧
      (start.run (before ++ [.call 2])).callers[2]? = some (.waiting 1) := by
  intro before
  have hFailed : (start.run before).loads[0]? = some (.ended (.failure "disk on fire")) := rfl
  have hUnwatched : FailedUnwatched before 0 "disk on fire" :=
    ⟨[.call 1, .cancel 0], [], rfl, rfl, rfl, by decide, nofun⟩
  have hFirst : CallersFirst [(.call 2 : Step Nat)] := ⟨[], 1, [], rfl, nofun⟩
  have hReaches := run_failure_reaches_iff before [.call 2] 0 "disk on fire" hFailed 1 (Nat.le_refl _)
  exact ⟨hFailed, Nat.le_refl _, hReaches.1.2 ⟨rfl, hUnwatched, hFirst⟩, rfl⟩

end QuestScript.SingleFlight

/-!
Single-flight loading. The first caller that finds no value starts a load; those who come while it
runs wait for the same load; and its value is kept until it is dropped. A failed load is not kept.

The machine moves in steps from outside: callers come and go, loads end, the value is dropped. In
each step all callers that can go on do so, in the order in which they came.
-/

namespace QuestScript

namespace SingleFlight

/-- How a load ended: with a value, or with the message of its failure. -/
inductive Outcome (α : Type) where
  | value (value : α)
  | failure (message : String)
deriving DecidableEq, Repr

/-- A load: still running, or ended. -/
inductive Load (α : Type) where
  | running
  | ended (outcome : Outcome α)
deriving DecidableEq, Repr

/-- A caller: waiting for a load, given its outcome, or gone. -/
inductive Caller (α : Type) where
  | waiting (load : Nat)
  | answered (outcome : Outcome α)
  | cancelled
deriving DecidableEq, Repr

end SingleFlight

open SingleFlight

/-- The state of the machine: the value that is kept, the load that new callers join, and all loads
and callers so far, in the order in which they came. -/
structure SingleFlight (α : Type) where
  kept : Option α
  current : Option Nat
  loads : List (Load α)
  callers : List (Caller α)
deriving DecidableEq, Repr

namespace SingleFlight

variable {α : Type}

/-- Nothing loaded, and nobody there. -/
def start : SingleFlight α := ⟨none, none, [], []⟩

def addCaller (flight : SingleFlight α) (caller : Caller α) : SingleFlight α :=
  { flight with callers := flight.callers ++ [caller] }

/-- What the outcome of the current load leaves behind: its value is kept, a failure is not. -/
def settle (flight : SingleFlight α) : Outcome α → SingleFlight α
  | .value value => { flight with kept := some value, current := none }
  | .failure _ => { flight with current := none }

/-- A caller comes: it gets the value that is kept, or the outcome of a load that ended with nobody
waiting, or it waits for the current load or for a new one. -/
def call (flight : SingleFlight α) : SingleFlight α :=
  match flight.kept with
  | some value => flight.addCaller (.answered (.value value))
  | none =>
    match flight.current with
    | none =>
      let load := flight.loads.length
      { flight with current := some load, loads := flight.loads ++ [Load.running] }
        |>.addCaller (.waiting load)
    | some load =>
      match flight.loads[load]? with
      | some (.ended outcome) => (flight.settle outcome).addCaller (.answered outcome)
      | _ => flight.addCaller (.waiting load)

def callMany (flight : SingleFlight α) : Nat → SingleFlight α
  | 0 => flight
  | count + 1 => flight.call.callMany count

def Caller.waitsFor (load : Nat) : Caller α → Bool
  | .waiting load' => load' = load
  | _ => false

/-- A load ends. Its callers are answered; if there are any, and the load is still the current one,
its outcome is settled. A load that does not run cannot end. -/
def finish (flight : SingleFlight α) (load : Nat) (outcome : Outcome α) : SingleFlight α :=
  match flight.loads[load]? with
  | some .running =>
    let ended := { flight with loads := flight.loads.set load (.ended outcome) }
    let settled :=
      if flight.callers.any (Caller.waitsFor load) && flight.current = some load then
        ended.settle outcome
      else ended
    { settled with
      callers := flight.callers.map fun caller =>
        if caller.waitsFor load then .answered outcome else caller }
  | _ => flight

/-- A caller goes. The load it waited for goes on; a caller that has its answer keeps it. -/
def cancel (flight : SingleFlight α) (caller : Nat) : SingleFlight α :=
  match flight.callers[caller]? with
  | some (.waiting _) => { flight with callers := flight.callers.set caller .cancelled }
  | _ => flight

/-- The value is dropped, and no new caller joins the current load. -/
def invalidate (flight : SingleFlight α) : SingleFlight α :=
  { flight with kept := none, current := none }

def isLoaded (flight : SingleFlight α) : Bool := flight.kept.isSome

/-- Some callers come at once, and the load they start, if they start one, ends. -/
def serve (flight : SingleFlight α) (callers : Nat) (outcome : Outcome α) : SingleFlight α :=
  (flight.callMany callers).finish flight.loads.length outcome

/-- A step from outside. -/
inductive Step (α : Type) where
  | call (count : Nat)
  | finish (load : Nat) (outcome : Outcome α)
  | cancel (caller : Nat)
  | invalidate
deriving DecidableEq, Repr

/-- Takes a step. -/
def step (flight : SingleFlight α) : Step α → SingleFlight α
  | .call count => flight.callMany count
  | .finish load outcome => flight.finish load outcome
  | .cancel caller => flight.cancel caller
  | .invalidate => flight.invalidate

def run (flight : SingleFlight α) (steps : List (Step α)) : SingleFlight α :=
  steps.foldl step flight

end SingleFlight

end QuestScript

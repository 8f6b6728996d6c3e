import QuestScript.Quest.Printer
/-!
Making the cached texts of a quest anew, in place. It goes call by call, and an integer that is not
converted stops it: the calls before have their new texts then, that call and those behind it the old
ones.
-/

namespace QuestScript

/-! ### Going along what is changed in place -/

namespace Along

variable {ε σ τ α : Type}

/-- Goes along a part of a whole, and puts it back as it is left, also by a failure. -/
def part (take : σ → τ) (put : τ → σ → σ) (visit : EStateM ε τ α) : EStateM ε σ α := fun whole =>
  match visit.run (take whole) with
  | .ok result left => .ok result (put left whole)
  | .error error left => .error error (put left whole)

/-- Goes along the items of a list in order, up to a failure: the items behind it stay. -/
def each (visit : EStateM ε σ α) : List σ → EStateM.Result ε (List σ) (List α)
  | [] => .ok [] []
  | item :: items =>
    match visit.run item with
    | .error error item => .error error (item :: items)
    | .ok result item =>
      match each visit items with
      | .error error items => .error error (item :: items)
      | .ok results items => .ok (result :: results) (item :: items)

def actions (visit : EStateM ε Action α) : EStateM ε State (List α) :=
  part State.actions (fun actions state => { state with actions }) (each visit)

def rules (visit : EStateM ε Rule α) : EStateM ε State (List α) :=
  part State.rules (fun rules state => { state with rules }) (each visit)

def states (visit : EStateM ε State α) : EStateM ε Quest (List α) :=
  part Quest.states (fun states quest => { quest with states }) (each visit)

def main (visit : EStateM ε State α) : EStateM ε Quest (List α) :=
  part (fun quest => quest.main.toList) (fun main quest => { quest with main := main.head? })
    (each visit)

end Along

/-! ### Cached texts -/

namespace Refresh

def action (schema : Schema) : EStateM Integer.Oversize Action Unit := do
  match (← get).write schema with
  | .ok text => modify fun action => { action with rawText := text }
  | .error fault => throw fault

def rule (schema : Schema) : EStateM Integer.Oversize Rule Unit := do
  match (← get).write schema with
  | .ok text => modify fun rule => { rule with rawText := text }
  | .error fault => throw fault

/-- Makes the cached texts of a state anew: those of the actions, then those of the rules. -/
def state (schema : Schema) : EStateM Integer.Oversize State Unit := do
  discard (Along.actions (action schema))
  discard (Along.rules (rule schema))

/-- Makes the cached texts of a quest anew: those of the main block, then those of the states. -/
def quest (schema : Schema) : EStateM Integer.Oversize Quest Unit := do
  discard (Along.main (state schema))
  discard (Along.states (state schema))

end Refresh

end QuestScript

import QuestScript.Quest.Basic
import QuestScript.Quest.Warning
/-!
Checks of a quest as it stands: references to states that do not exist, and rules that lead
nowhere. The pseudo-target `End` always exists. To find what an action leads to, its first argument is
taken as text, which fails for an integer with too many digits.
-/

namespace QuestScript

/-- The target that means the end of the quest. -/
def endTarget : String := "End"

/-- Actions whose first argument names a state of the same quest. -/
def isNavigation (type : String) : Bool := type = "SetState" || type = "Goto"

/-- The state that an action leads to, by the text of its first argument. -/
def Action.navigationTarget? (action : Action) : Option String :=
  if isNavigation action.type then action.params.head?.map Param.valueText else none

/-- The fault of finding the state that an action leads to. -/
def Action.targetFault? (action : Action) : Option Integer.Oversize :=
  if isNavigation action.type then action.params.head?.bind Param.valueFault? else none

/-- The first fault of finding the states that the actions of a block lead to. -/
def State.targetFault? (state : State) : Option Integer.Oversize :=
  state.actions.findSome? Action.targetFault?

namespace Quest

/-- Whether a target is the end of the quest or a state of it. -/
def knowsTarget (quest : Quest) (target : String) : Bool :=
  target = endTarget || quest.stateNames.contains target

/-- The warning about an action of a block, if it leads to no state. -/
def danglingAction? (quest : Quest) (block : State) (action : Action) : Option Warning :=
  match action.navigationTarget? with
  | some target =>
    if target.isEmpty || quest.knowsTarget target then none
    else some (.danglingAction block.name action.type target)
  | none => none

/-- The warning about a rule of a block, if it leads to no state. An empty target is not one. -/
def danglingRule? (quest : Quest) (block : State) (rule : Rule) : Option Warning :=
  if rule.goto.isEmpty || quest.knowsTarget rule.goto then none
  else some (.danglingRule block.name rule.type rule.goto)

/-- The warning about a target of a random block, if it is no state. -/
def danglingTarget? (quest : Quest) (block : RandomBlock) (target : RandomTarget) :
    Option Warning :=
  if quest.knowsTarget target.state then none else some (.danglingRandom block.name target.state)

/-- The warnings about references of a block: those of its actions, then those of its rules. -/
def danglingIn (quest : Quest) (block : State) : List Warning :=
  block.actions.filterMap (quest.danglingAction? block) ++
    block.rules.filterMap (quest.danglingRule? block)

/-- One warning for each reference to a state that does not exist: block by block, the main block
first, and the random blocks last. -/
def danglingGotos (quest : Quest) : List Warning :=
  quest.blocks.flatMap quest.danglingIn ++
    quest.random.flatMap fun block => block.targets.filterMap (quest.danglingTarget? block)

/-- Finds the references to states that do not exist. -/
def findDangling (quest : Quest) : Except Integer.Oversize (List Warning) :=
  Integer.guarded (quest.blocks.findSome? State.targetFault?) quest.danglingGotos

/-- One warning for each rule whose target is empty. -/
def emptyGotos (quest : Quest) : List Warning :=
  quest.blocks.flatMap fun block =>
    (block.rules.filter fun rule => rule.goto.isEmpty).map fun rule =>
      .emptyGoto block.name rule.type

/-- All warnings about a quest as it stands. Each is noted with the number of the quest. -/
def validate (quest : Quest) : Except Integer.Oversize (List Warning) := do
  let found := quest.emptyGotos ++ (← quest.findDangling)
  if found.isEmpty then return found else Integer.guarded quest.id.textFault? found

end Quest

end QuestScript

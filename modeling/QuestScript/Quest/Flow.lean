import QuestScript.Quest.Validation
/-!
The flow of a quest: which state leads to which, and by what.
-/

namespace QuestScript

/-- What leads from a state: a rule, an action that names a state, or the end of the quest. -/
inductive EdgeKind where
  | rule
  | action
  | finish
deriving DecidableEq, Repr

/-- A step from a state to another, or to the end of the quest. -/
structure Transition where
  source : String
  target : String
  label : String
  kind : EdgeKind
  conditional : Bool
deriving DecidableEq, Repr

def Transition.id (edge : Transition) : String :=
  edge.source ++ "-" ++ edge.label ++ "-" ++ edge.target

/-- The node that stands for the end of the quest. -/
def endNode : String := "__END__"

def endAction : String := "End"

/-- The type of the rule that always holds. -/
def unconditionalRule : String := "Always"

namespace Quest

def hasEndAction (quest : Quest) : Bool :=
  quest.states.any fun state => state.actions.any fun action => action.type = endAction

/-- The node that a rule leads to: the state of that name, or else the end, if it names it. -/
def ruleNode? (quest : Quest) (target : String) : Option String :=
  if quest.stateNames.contains target then some target
  else if target = endTarget then some endNode
  else none

def ruleEdge? (quest : Quest) (state : State) (rule : Rule) : Option Transition :=
  (quest.ruleNode? rule.goto).map fun target =>
    ⟨state.name, target, rule.type, .rule, rule.type ≠ unconditionalRule⟩

/-- The transition of an action: to the end, or to the state that it names if that exists. -/
def actionEdge? (quest : Quest) (state : State) (action : Action) : Option Transition :=
  if action.type = endAction then some ⟨state.name, endNode, endAction, .finish, false⟩
  else
    match action.navigationTarget? with
    | some target =>
      if !target.isEmpty && quest.stateNames.contains target then
        some ⟨state.name, target, action.type, .action, false⟩
      else none
    | none => none

/-- The transitions out of a state: those of its rules, then those of its actions. -/
def edgesFrom (quest : Quest) (state : State) : List Transition :=
  state.rules.filterMap (quest.ruleEdge? state) ++
    state.actions.filterMap (quest.actionEdge? state)

/-- The transitions of a quest, state by state. The main block has none. -/
def transitions (quest : Quest) : List Transition := quest.states.flatMap quest.edgesFrom

/-- Finds the transitions of a quest, and with them the states that its actions lead to. -/
def findTransitions (quest : Quest) : Except Integer.Oversize (List Transition) :=
  Integer.guarded (quest.states.findSome? State.targetFault?) quest.transitions

end Quest

end QuestScript

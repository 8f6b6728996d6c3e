import QuestScript.Quest.Param
import QuestScript.Number.Basic
import QuestScript.Script.Attribute
/-!
Quests: attributes, states with their actions and rules, and random choices among states.

Actions and rules carry the text they were last written as. It is a cache: it never counts when
quests are compared, and nothing is read from it.
-/

namespace QuestScript

/-- A statement that is carried out when a state is entered. -/
structure Action where
  type : String
  params : List Param
  rawText : String
deriving DecidableEq, Repr, Inhabited

/-- A condition that leads to another state. The target is empty only while a quest is edited. -/
structure Rule where
  type : String
  params : List Param
  goto : String
  rawText : String
deriving DecidableEq, Repr, Inhabited

/-- A node of a quest. -/
structure State where
  name : String
  description : String
  actions : List Action
  rules : List Rule
deriving DecidableEq, Repr, Inhabited

def State.named (name : String) : State := ⟨name, "", [], []⟩

/-- One outcome of a random choice. -/
structure RandomTarget where
  state : String
  weight : Number
deriving DecidableEq, Repr, Inhabited

/-- A weighted choice among states. -/
structure RandomBlock where
  name : String
  targets : List RandomTarget
deriving DecidableEq, Repr, Inhabited

/-- The gates of a quest. -/
structure Gates where
  minLevel : Option Number
  maxLevel : Option Number
  needAdmin : Option Number
  needClass : Option Number
  needQuest : Option Number
  startNpc : Option Number
deriving DecidableEq, Repr, Inhabited

namespace Gates

def none : Gates := ⟨.none, .none, .none, .none, .none, .none⟩

def get (gates : Gates) : Gate → Option Number
  | .minLevel => gates.minLevel
  | .maxLevel => gates.maxLevel
  | .needAdmin => gates.needAdmin
  | .needClass => gates.needClass
  | .needQuest => gates.needQuest
  | .startNpc => gates.startNpc

def set (gates : Gates) (gate : Gate) (value : Option Number) : Gates :=
  match gate with
  | .minLevel => { gates with minLevel := value }
  | .maxLevel => { gates with maxLevel := value }
  | .needAdmin => { gates with needAdmin := value }
  | .needClass => { gates with needClass := value }
  | .needQuest => { gates with needQuest := value }
  | .startNpc => { gates with startNpc := value }

end Gates

/-- The flags of a quest. -/
structure Flags where
  hidden : Bool
  hiddenEnd : Bool
  disabled : Bool
deriving DecidableEq, Repr, Inhabited

namespace Flags

def none : Flags := ⟨false, false, false⟩

def get (flags : Flags) : Flag → Bool
  | .hidden => flags.hidden
  | .hiddenEnd => flags.hiddenEnd
  | .disabled => flags.disabled

def set (flags : Flags) (flag : Flag) (value : Bool) : Flags :=
  match flag with
  | .hidden => { flags with hidden := value }
  | .hiddenEnd => { flags with hiddenEnd := value }
  | .disabled => { flags with disabled := value }

end Flags

/-- A quest. The number `id` comes from the name of its file and is never part of its script; the
table `extra` holds the attributes that quests have no field for, without a value where the script
gives none; `main` is the block that is carried out once, before the first state. -/
structure Quest where
  id : Number
  name : String
  version : Number
  gates : Gates
  flags : Flags
  extra : Table String (Option Param)
  main : Option State
  states : List State
  random : List RandomBlock
deriving DecidableEq, Repr

namespace Quest

/-- A quest without content. -/
def blank (id : Number) : Quest := ⟨id, "", 1, Gates.none, Flags.none, Table.empty, none, [], []⟩

instance : Inhabited Quest := ⟨blank 0⟩

def stateNames (quest : Quest) : List String := quest.states.map State.name

def state? (quest : Quest) (name : String) : Option State :=
  quest.states.find? fun state => state.name = name

def random? (quest : Quest) (name : String) : Option RandomBlock :=
  quest.random.find? fun block => block.name = name

/-- The blocks that hold statements: the main block, then the states. -/
def blocks (quest : Quest) : List State := quest.main.toList ++ quest.states

end Quest

/-- The sum of the weights of a random block; none if an integer among them is beyond the
floating-point range while another weight is a floating-point number. -/
def RandomBlock.totalWeight? (block : RandomBlock) : Option Number :=
  block.targets.foldlM (fun sum target => sum.add? target.weight) 0

/-! ### Content

What counts when quests are compared: all but the cached text, how a text was written, the order
of the other attributes, and whether a number is written as an integer. -/

def Action.content (action : Action) : Action :=
  ⟨action.type, action.params.map Param.content, ""⟩

def Rule.content (rule : Rule) : Rule :=
  ⟨rule.type, rule.params.map Param.content, rule.goto, ""⟩

def State.content (state : State) : State :=
  { state with
    actions := state.actions.map Action.content
    rules := state.rules.map Rule.content }

/-- Whether two optional numbers are both absent or have one value. -/
def Number.sameOptional : Option Number → Option Number → Bool
  | none, none => true
  | some x, some y => x.sameValue y
  | _, _ => false

/-- Whether two targets are the same state with one weight. -/
def RandomTarget.same (left right : RandomTarget) : Bool :=
  left.state == right.state && left.weight.sameValue right.weight

/-- Whether two lists have the same items, pairwise and in order. -/
def sameItems {α : Type} (same : α → α → Bool) : List α → List α → Bool
  | [], [] => true
  | x :: xs, y :: ys => same x y && sameItems same xs ys
  | _, _ => false

/-- Whether two random blocks have one name and the same targets in order. -/
def RandomBlock.same (left right : RandomBlock) : Bool :=
  left.name == right.name && sameItems RandomTarget.same left.targets right.targets

/-- Whether two quests are equal: whether all that counts agrees. -/
def Quest.same (left right : Quest) : Bool :=
  left.id.sameValue right.id && left.name == right.name &&
    left.version.sameValue right.version &&
    Gate.all.all (fun gate =>
      Number.sameOptional (left.gates.get gate) (right.gates.get gate)) &&
    left.flags == right.flags &&
    (left.extra.map (Option.map Param.content)).sameEntries
      (right.extra.map (Option.map Param.content)) &&
    left.main.map State.content == right.main.map State.content &&
    left.states.map State.content == right.states.map State.content &&
    sameItems RandomBlock.same left.random right.random

end QuestScript

import QuestScript.Text.Case
/-!
Quest attributes: what a script says about the quest as a whole, each under its keyword.
-/

namespace QuestScript

/-- Attributes with an optional number: who may take the quest, and who gives it. -/
inductive Gate where
  | minLevel
  | maxLevel
  | needAdmin
  | needClass
  | needQuest
  | startNpc
deriving DecidableEq, Repr

def Gate.all : List Gate := [.minLevel, .maxLevel, .needAdmin, .needClass, .needQuest, .startNpc]

def Gate.keyword : Gate → String
  | .minLevel => "minlevel"
  | .maxLevel => "maxlevel"
  | .needAdmin => "needadmin"
  | .needClass => "needclass"
  | .needQuest => "needquest"
  | .startNpc => "startnpc"

/-- Attributes that are set or not. -/
inductive Flag where
  | hidden
  | hiddenEnd
  | disabled
deriving DecidableEq, Repr

def Flag.all : List Flag := [.hidden, .hiddenEnd, .disabled]

def Flag.keyword : Flag → String
  | .hidden => "hidden"
  | .hiddenEnd => "hidden_end"
  | .disabled => "disabled"

/-- The attributes that quests have fields for. -/
inductive Attribute where
  | questName
  | version
  | gate (gate : Gate)
  | flag (flag : Flag)
deriving DecidableEq, Repr

/-- The attributes with their keywords. Three gates have a second keyword. -/
def Attribute.keywords : List (String × Attribute) :=
  [("questname", .questName), ("version", .version)] ++
  Gate.all.map (fun gate => (gate.keyword, .gate gate)) ++
  Flag.all.map (fun flag => (flag.keyword, .flag flag)) ++
  [("adminreq", .gate .needAdmin), ("classreq", .gate .needClass), ("questreq", .gate .needQuest)]

/-- The attribute that a key names, in letters of either case. -/
def Attribute.ofKey? (key : String) : Option Attribute :=
  Attribute.keywords.lookup (Text.lowered key)

def Attribute.isFlag : Attribute → Bool
  | .flag _ => true
  | _ => false

end QuestScript

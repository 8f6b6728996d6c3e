import QuestScript.Quest.Printer
/-!
Skeletons: quests to start from.
-/

namespace QuestScript

/-- A quest to start from, without a number of its own. -/
structure Skeleton where
  name : String
  description : String
  questName : String
  states : List State
deriving DecidableEq, Repr

namespace Skeleton

def text (value : String) : Param := .quoted value

def int (value : Int) : Param := .int value

def act (type : String) (params : List Param) : Action := ⟨type, params, ""⟩

def rule (type : String) (params : List Param) (goto : String) : Rule := ⟨type, params, goto, ""⟩

/-- Simple quest where player collects items and returns to NPC for a reward. -/
def fetchQuest : Skeleton :=
  { name := "Fetch Quest"
    description :=
      "Simple quest where player collects items and returns to NPC for a reward."
    questName := "New Fetch Quest"
    states :=
      [{ name := "Begin", description := "Talk to NPC"
         actions :=
           [act "AddNpcText" [int 1, text "Greetings! I need your help with a task."],
            act "AddNpcText" [int 1, text "Can you fetch me some items? I need 5 of item #100."],
            act "AddNpcInput" [int 1, int 1, text "Sure, I can help!"],
            act "AddNpcInput" [int 1, int 2, text "No, sorry."]]
         rules :=
           [rule "InputNpc" [int 1] "CollectItems",
            rule "InputNpc" [int 2] "Begin"] },
       { name := "CollectItems", description := "Collect 5 of Item #100"
         actions :=
           [act "AddNpcText" [int 1, text "Go collect the items and return to me when you have them."]]
         rules :=
           [rule "GotItems" [int 100, int 5] "ReturnToNPC"] },
       { name := "ReturnToNPC", description := "Return to NPC"
         actions :=
           [act "AddNpcText" [int 1, text "Excellent! You have the items. Here is your reward."],
            act "RemoveItem" [int 100, int 5]]
         rules :=
           [rule "TalkedToNpc" [int 1] "Reward"] },
       { name := "Reward", description := ""
         actions :=
           [act "GiveExp" [int 1000],
            act "GiveItem" [int 1, int 500],
            act "End" []]
         rules := [] }] }

/-- Combat-focused quest where player must defeat a certain number of monsters. -/
def killQuest : Skeleton :=
  { name := "Kill Quest"
    description :=
      "Combat-focused quest where player must defeat a certain number of monsters."
    questName := "New Kill Quest"
    states :=
      [{ name := "Begin", description := "Talk to NPC"
         actions :=
           [act "AddNpcText" [int 1, text "The monsters are getting out of control!"],
            act "AddNpcText" [int 1, text "Can you help me by killing 10 of NPC #2?"],
            act "AddNpcInput" [int 1, int 1, text "I will do it!"],
            act "AddNpcInput" [int 1, int 2, text "Not interested."]]
         rules :=
           [rule "InputNpc" [int 1] "KillMonsters",
            rule "InputNpc" [int 2] "Begin"] },
       { name := "KillMonsters", description := "Kill 10 of NPC #2"
         actions :=
           [act "AddNpcText" [int 1, text "Go kill the monsters and report back to me when you are done."]]
         rules :=
           [rule "KilledNpcs" [int 2, int 10] "ReturnToNPC"] },
       { name := "ReturnToNPC", description := "Return to NPC for reward"
         actions :=
           [act "AddNpcText" [int 1, text "Well done! You have done a great service. Here is your reward."]]
         rules :=
           [rule "TalkedToNpc" [int 1] "Reward"] },
       { name := "Reward", description := ""
         actions :=
           [act "GiveExp" [int 2000],
            act "GiveItem" [int 1, int 1000],
            act "End" []]
         rules := [] }] }

/-- Multi-stage quest involving picking up and delivering items between NPCs. -/
def deliveryQuest : Skeleton :=
  { name := "Delivery Quest"
    description :=
      "Multi-stage quest involving picking up and delivering items between NPCs."
    questName := "New Delivery Quest"
    states :=
      [{ name := "Begin", description := "Talk to NPC #1"
         actions :=
           [act "AddNpcText" [int 1, text "I need you to deliver this package to someone."],
            act "AddNpcText" [int 1, text "Can you take it to NPC #2 for me?"],
            act "AddNpcInput" [int 1, int 1, text "Yes, I can deliver it."],
            act "AddNpcInput" [int 1, int 2, text "No thanks."]]
         rules :=
           [rule "InputNpc" [int 1] "GotPackage",
            rule "InputNpc" [int 2] "Begin"] },
       { name := "GotPackage", description := "Deliver package to NPC #2"
         actions :=
           [act "GiveItem" [int 200, int 1],
            act "AddNpcText" [int 1, text "Thank you! Please deliver this to NPC #2."]]
         rules :=
           [rule "TalkedToNpc" [int 1] "DeliverPackage"] },
       { name := "DeliverPackage", description := "Talk to NPC #2"
         actions :=
           [act "AddNpcText" [int 2, text "Oh, you have a delivery for me?"],
            act "AddNpcInput" [int 2, int 1, text "Yes, here it is."]]
         rules :=
           [rule "InputNpc" [int 1] "ReturnToSender",
            rule "LostItems" [int 200, int 1] "Begin"] },
       { name := "ReturnToSender", description := "Return to NPC #1"
         actions :=
           [act "RemoveItem" [int 200, int 1],
            act "AddNpcText" [int 2, text "Thank you! Please tell the sender I received it."]]
         rules :=
           [rule "TalkedToNpc" [int 2] "CompleteDelivery"] },
       { name := "CompleteDelivery", description := "Talk to NPC #1"
         actions :=
           [act "AddNpcText" [int 1, text "Excellent work! Here is your reward."]]
         rules :=
           [rule "TalkedToNpc" [int 1] "Reward"] },
       { name := "Reward", description := ""
         actions :=
           [act "GiveExp" [int 500],
            act "GiveItem" [int 1, int 250],
            act "End" []]
         rules := [] }] }

/-- Complex quest requiring multiple different items with validation checks. -/
def collectionQuest : Skeleton :=
  { name := "Collection Quest"
    description :=
      "Complex quest requiring multiple different items with validation checks."
    questName := "New Collection Quest"
    states :=
      [{ name := "Begin", description := "Talk to NPC"
         actions :=
           [act "AddNpcText" [int 1, text "I am looking for rare items. Can you help me collect them?"],
            act "AddNpcText" [int 1, text "I need 3 of item #101, 5 of item #102, and 2 of item #103."],
            act "AddNpcInput" [int 1, int 1, text "I will find them."],
            act "AddNpcInput" [int 1, int 2, text "Maybe later."]]
         rules :=
           [rule "InputNpc" [int 1] "CollectItems",
            rule "InputNpc" [int 2] "Begin"] },
       { name := "CollectItems", description := "Collect items"
         actions :=
           [act "AddNpcText" [int 1, text "Let me know when you have all the items."]]
         rules :=
           [rule "GotItems" [int 101, int 3] "CheckItems2"] },
       { name := "CheckItems2", description := "Collect items"
         actions := []
         rules :=
           [rule "GotItems" [int 102, int 5] "CheckItems3",
            rule "LostItems" [int 101, int 3] "CollectItems"] },
       { name := "CheckItems3", description := "Collect items"
         actions := []
         rules :=
           [rule "GotItems" [int 103, int 2] "ReturnToNPC",
            rule "LostItems" [int 102, int 5] "CheckItems2"] },
       { name := "ReturnToNPC", description := "Return to NPC"
         actions :=
           [act "AddNpcText" [int 1, text "Perfect! You have all the items. Thank you so much!"],
            act "RemoveItem" [int 101, int 3],
            act "RemoveItem" [int 102, int 5],
            act "RemoveItem" [int 103, int 2]]
         rules :=
           [rule "TalkedToNpc" [int 1] "Reward"] },
       { name := "Reward", description := ""
         actions :=
           [act "GiveExp" [int 3000],
            act "GiveItem" [int 1, int 2000],
            act "End" []]
         rules := [] }] }

/-- Repeatable quest allowing players to change their class freely. -/
def classChangeQuest : Skeleton :=
  { name := "Class Change Quest"
    description :=
      "Repeatable quest allowing players to change their class freely."
    questName := "New Class Change Quest"
    states :=
      [{ name := "Begin", description := "Talk to NPC"
         actions :=
           [act "AddNpcText" [int 1, text "You have grown strong. Are you ready to advance your class?"],
            act "AddNpcInput" [int 1, int 1, text "Yes, I am ready."],
            act "AddNpcInput" [int 1, int 2, text "Not yet."]]
         rules :=
           [rule "InputNpc" [int 1] "ClassMenu",
            rule "InputNpc" [int 2] "Begin"] },
       { name := "ClassMenu", description := "Choose your class"
         actions :=
           [act "AddNpcText" [int 1, text "Choose your new class:"],
            act "AddNpcInput" [int 1, int 1, text "Warrior"],
            act "AddNpcInput" [int 1, int 2, text "Mage"],
            act "AddNpcInput" [int 1, int 3, text "Archer"],
            act "AddNpcInput" [int 1, int 4, text "Rogue"]]
         rules :=
           [rule "InputNpc" [int 1] "Warrior",
            rule "InputNpc" [int 2] "Mage",
            rule "InputNpc" [int 3] "Archer",
            rule "InputNpc" [int 4] "Rogue"] },
       { name := "Warrior", description := ""
         actions :=
           [act "SetClass" [int 1],
            act "SetState" [text "ClassMenu"]]
         rules := [] },
       { name := "Mage", description := ""
         actions :=
           [act "SetClass" [int 2],
            act "SetState" [text "ClassMenu"]]
         rules := [] },
       { name := "Archer", description := ""
         actions :=
           [act "SetClass" [int 3],
            act "SetState" [text "ClassMenu"]]
         rules := [] },
       { name := "Rogue", description := ""
         actions :=
           [act "SetClass" [int 4],
            act "SetState" [text "ClassMenu"]]
         rules := [] }] }

def all : List Skeleton := [fetchQuest, killQuest, deliveryQuest, collectionQuest, classChangeQuest]

def find? (name : String) : Option Skeleton := all.find? fun skeleton => skeleton.name = name

def unknownMessage (name : String) : String := "Unknown quest skeleton '" ++ name ++ "'"

def instantiate (schema : Schema) (skeleton : Skeleton) (id : Number) : Quest :=
  ({ Quest.blank id with name := skeleton.questName, states := skeleton.states } : Quest).refresh
    schema

end Skeleton

end QuestScript

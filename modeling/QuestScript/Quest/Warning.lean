import QuestScript.Script.Malformed
/-!
Warnings about quests. None of them keeps a quest from being read or written.
-/

namespace QuestScript

/-- A warning. The first four are about a line of a script, the others about a quest however it
came to be. -/
inductive Warning where
  | unknownAttribute (line : Nat) (key : String)
  | unknownAction (line : Nat) (name : String)
  | unknownRule (line : Nat) (name : String)
  | duplicateDescription (line : Nat) (block : Script.Section)
  | danglingAction (state action target : String)
  | danglingRule (state rule target : String)
  | danglingRandom (block target : String)
  | emptyGoto (state rule : String)
deriving DecidableEq, Repr

namespace Warning

def message : Warning → String
  | .unknownAttribute _ key => "unknown quest attribute '" ++ key ++ "'"
  | .unknownAction _ name => "unknown action '" ++ name ++ "'"
  | .unknownRule _ name => "unknown rule '" ++ name ++ "'"
  | .duplicateDescription _ block =>
    block.label ++ " has more than one desc, the last one wins"
  | .danglingAction state action target =>
    action ++ " in '" ++ state ++ "' targets unknown state '" ++ target ++ "'"
  | .danglingRule state rule target =>
    rule ++ " in '" ++ state ++ "' goes to unknown state '" ++ target ++ "'"
  | .danglingRandom block target =>
    "random '" ++ block ++ "' picks unknown state '" ++ target ++ "'"
  | .emptyGoto state rule => rule ++ " in '" ++ state ++ "' has no goto target"

def line? : Warning → Option Nat
  | .unknownAttribute line _ => some line
  | .unknownAction line _ => some line
  | .unknownRule line _ => some line
  | .duplicateDescription line _ => some line
  | _ => none

def text (warning : Warning) : String :=
  match warning.line? with
  | some line => "line " ++ toString line ++ ": " ++ warning.message
  | none => warning.message

/-- Whether a warning is about a reference to a state that does not exist. -/
def isDangling : Warning → Bool
  | .danglingAction .. => true
  | .danglingRule .. => true
  | .danglingRandom .. => true
  | _ => false

end Warning

end QuestScript

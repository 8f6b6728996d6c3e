import QuestScript.Document.Shape
/-!
The format of quest documents.
-/

namespace QuestScript.Document

namespace Shape

def text : Shape := .scalar [.string] false false

def name : Shape := .scalar [.string] true false

def integer : Shape := .scalar [.integer] false false

def natural : Shape := .scalar [.integer] false true

def optionalInteger : Shape := .scalar [.integer, .null] false false

def truth : Shape := .scalar [.boolean] false false

def param : Shape := .scalar [.string, .integer] false false

def action : Shape :=
  .record ["type", "params"]
    [("type", name), ("params", .array param), ("rawText", text)]

def rule : Shape :=
  .record ["type", "params", "gotoState"]
    [("type", name), ("params", .array param), ("gotoState", text), ("rawText", text)]

def state : Shape :=
  .record ["name"]
    [("name", name), ("description", text), ("actions", .array action), ("rules", .array rule)]

def randomTarget : Shape :=
  .record ["state"] [("state", name), ("weight", natural)]

def randomBlock : Shape :=
  .record ["name", "targets"] [("name", name), ("targets", .array randomTarget)]

/-- A quest. -/
def quest : Shape :=
  .record ["questName", "states"]
    [("id", natural), ("questName", text), ("version", integer),
     ("minLevel", optionalInteger), ("maxLevel", optionalInteger),
     ("adminReq", optionalInteger), ("classReq", optionalInteger),
     ("questReq", optionalInteger), ("startNpc", optionalInteger),
     ("hidden", truth), ("hiddenEnd", truth), ("disabled", truth),
     ("extraMetadata", .dictionary (.scalar [.string, .integer, .null] false false)),
     ("main", .anyOf [state, .scalar [.null] false false]),
     ("states", .array state), ("randomBlocks", .array randomBlock)]

end Shape

/-- The violations of the quest format, in the order in which they are found. -/
def violations (document : Json) : List Violation := Shape.quest.violations document

def firstViolation? (document : Json) : Option Violation := (violations document).head?

/-- The reports of all violations, in the order of their paths. -/
def reports (document : Json) : List String :=
  (sortByPath (violations document)).map Violation.report

end QuestScript.Document

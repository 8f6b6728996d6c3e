import QuestScript.Json.Basic
/-!
Shapes of document values, and the violations of a shape: what is wrong, and the path from the
whole value to the place where it is. A value has the shape when it has no violation.
-/

namespace QuestScript.Document

/-- The types of document values. -/
inductive ValueType where
  | null
  | boolean
  | integer
  | string
  | array
  | object
deriving DecidableEq, Repr

def ValueType.name : ValueType → String
  | .null => "null"
  | .boolean => "boolean"
  | .integer => "integer"
  | .string => "string"
  | .array => "array"
  | .object => "object"

/-- Whether a value has a type. A floating-point number is an integer when its value is one, and
truth values are no integers. -/
def ValueType.accepts : ValueType → Json → Bool
  | .null, .null => true
  | .boolean, .bool _ => true
  | .integer, .number n => n.toInt?.isSome
  | .string, .string _ => true
  | .array, .array _ => true
  | .object, .object _ => true
  | _, _ => false

/-- What a value has to be: of one of some types, with bounds for texts and numbers; an array of
one shape; a record of given members, some of them required; a dictionary of values of one shape;
or of one of several shapes. -/
inductive Shape where
  | scalar (types : List ValueType) (nonEmpty nonNegative : Bool)
  | array (items : Shape)
  | record (required : List String) (members : List (String × Shape))
  | dictionary (values : Shape)
  | anyOf (options : List Shape)

/-- A step of a path: the name of a member or the index of an item. -/
inductive Key where
  | member (name : String)
  | item (index : Nat)
deriving DecidableEq, Repr

def Key.text : Key → String
  | .member name => name
  | .item index => toString index

/-- What is wrong with a value. -/
inductive Problem where
  | wrongType (value : Json) (types : List ValueType)
  | missing (name : String)
  | emptyText
  | negative (value : Json)
  | unexpected (names : List String)
  | noOption (value : Json)

def Problem.message : Problem → String
  | .wrongType value types =>
    value.display ++ " is not of type " ++
      ", ".intercalate (types.map fun type => Text.quoted type.name)
  | .missing name => Text.quoted name ++ " is a required property"
  | .emptyText => Text.quoted "" ++ " should be non-empty"
  | .negative value => value.display ++ " is less than the minimum of 0"
  | .unexpected names =>
    "Additional properties are not allowed (" ++ ", ".intercalate (names.map Text.quoted) ++
      (if names.length = 1 then " was" else " were") ++ " unexpected)"
  | .noOption value => value.display ++ " is not valid under any of the given schemas"

/-- What is wrong, in words, and the path to its place. -/
structure Violation where
  path : List Key
  message : String
deriving DecidableEq, Repr

/-- The violation seen from the value around it. -/
def Violation.under (key : Key) (violation : Violation) : Violation :=
  { violation with path := key :: violation.path }

def Violation.here (problem : Problem) : Violation := ⟨[], problem.message⟩

def Violation.location (violation : Violation) : String :=
  if violation.path.isEmpty then "<root>" else "/".intercalate (violation.path.map Key.text)

def Violation.report (violation : Violation) : String :=
  violation.location ++ ": " ++ violation.message

def typeViolations (types : List ValueType) (value : Json) : List Violation :=
  if types.any fun type => type.accepts value then [] else [.here (.wrongType value types)]

def emptyViolations : Json → List Violation
  | .string s => if s.isEmpty then [.here .emptyText] else []
  | _ => []

def negativeViolations : Json → List Violation
  | .number n => if n.isNegative then [.here (.negative (.number n))] else []
  | _ => []

def missingViolations (required : List String) (members : List (String × Json)) :
    List Violation :=
  (required.filter fun name => !(members.map Prod.fst).contains name).map fun name =>
    .here (.missing name)

/-- The violation of having members that a record does not have, reported in the order of their
names. -/
def unexpectedViolations (known : List String) (members : List (String × Json)) :
    List Violation :=
  let unexpected := (members.map Prod.fst).filter fun name => !known.contains name
  if unexpected.isEmpty then []
  else [.here (.unexpected (unexpected.mergeSort fun left right => decide (left ≤ right)))]

/-- The violations of items, from an index on. -/
def itemViolations (check : Json → List Violation) : Nat → List Json → List Violation
  | _, [] => []
  | index, item :: rest =>
    (check item).map (.under (.item index)) ++ itemViolations check (index + 1) rest

/-- The violations of the values of members, one member after the other. -/
def valueViolations (check : Json → List Violation) : List (String × Json) → List Violation
  | [] => []
  | (name, value) :: rest =>
    (check value).map (.under (.member name)) ++ valueViolations check rest

namespace Shape

mutual
/-- The violations of a shape by a value. Its type comes first, then required members, members in
the order of the shape, and unexpected members. The members of a dictionary are taken from the last
to the first. -/
def violations : Shape → Json → List Violation
  | .scalar types nonEmpty nonNegative, value =>
    typeViolations types value ++
      (if nonEmpty then emptyViolations value else []) ++
      (if nonNegative then negativeViolations value else [])
  | .array items, value =>
    typeViolations [.array] value ++
      match value with
      | .array values => itemViolations (violations items) 0 values
      | _ => []
  | .record required shapes, value =>
    typeViolations [.object] value ++
      match value with
      | .object members =>
        missingViolations required members ++ memberViolations shapes members ++
          unexpectedViolations (shapes.map Prod.fst) members
      | _ => []
  | .dictionary values, value =>
    typeViolations [.object] value ++
      match value with
      | .object members => valueViolations (violations values) members.reverse
      | _ => []
  | .anyOf options, value => if anyAccepts options value then [] else [.here (.noOption value)]

/-- The violations of the members of a record that are there. -/
def memberViolations : List (String × Shape) → List (String × Json) → List Violation
  | [], _ => []
  | (name, shape) :: rest, members =>
    (match members.lookup name with
      | some value => (violations shape value).map (.under (.member name))
      | none => []) ++ memberViolations rest members

def anyAccepts : List Shape → Json → Bool
  | [], _ => false
  | option :: rest, value => (violations option value).isEmpty || anyAccepts rest value
end

end Shape

/-- Orders the steps of paths: names by their characters, indexes by number. Names come before
indexes, though no two violations of a shape have a name and an index at one place. -/
def Key.compare : Key → Key → Ordering
  | .member left, .member right => Ord.compare left right
  | .item left, .item right => Ord.compare left right
  | .member _, .item _ => .lt
  | .item _, .member _ => .gt

/-- Whether a path comes before another or is the same. A path comes before those that go on from
it. -/
def pathLe : List Key → List Key → Bool
  | [], _ => true
  | _ :: _, [] => false
  | left :: lefts, right :: rights =>
    match left.compare right with
    | .lt => true
    | .eq => pathLe lefts rights
    | .gt => false

/-- The violations in the order of their paths; those of one path keep their order. -/
def sortByPath (violations : List Violation) : List Violation :=
  violations.mergeSort fun left right => pathLe left.path right.path

end QuestScript.Document

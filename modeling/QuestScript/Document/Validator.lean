import QuestScript.Document.Format
/-!
Validation of quest documents. Whether a document has the format is left to a validator, which also
says what is wrong and where. Of a validator no more is assumed than that it accepts what has the
format, that its paths go into the document, and that it answers unless an integer of the document has
too many digits to be shown in a message.
-/

namespace QuestScript.Document

/-! ### What has a shape -/

def isEmptyText : Json → Bool
  | .string s => s.isEmpty
  | _ => false

def isBelowZero : Json → Bool
  | .number n => n.isNegative
  | _ => false

namespace Shape

mutual
/-- Whether a value has a shape: a scalar is of one of the types and keeps the bounds, each of which is
for one type only; the items of an array have its shape; a record has the members that are required and
none that are unknown, all of their shapes; and so have the values of a dictionary. -/
def accepts : Shape → Json → Bool
  | .scalar types nonEmpty nonNegative, value =>
    types.any (fun type => type.accepts value) &&
      !(nonEmpty && isEmptyText value) && !(nonNegative && isBelowZero value)
  | .array items, value =>
    match value with
    | .array values => values.all fun value => accepts items value
    | _ => false
  | .record required shapes, value =>
    match value with
    | .object members =>
      required.all (fun name => (members.map Prod.fst).contains name) &&
        members.all (fun member => (shapes.map Prod.fst).contains member.1) &&
        membersAccept shapes members
    | _ => false
  | .dictionary values, value =>
    match value with
    | .object members => members.all fun member => accepts values member.2
    | _ => false
  | .anyOf options, value => someAccepts options value

def membersAccept : List (String × Shape) → List (String × Json) → Bool
  | [], _ => true
  | (name, shape) :: rest, members =>
    (match members.lookup name with
      | some value => accepts shape value
      | none => true) && membersAccept rest members

def someAccepts : List Shape → Json → Bool
  | [], _ => false
  | option :: rest, value => accepts option value || someAccepts rest value
end

end Shape

/-! ### Places of documents -/

/-- What is one step inside a value: a member of an object, or an item of an array. -/
def step? : Json → Key → Option Json
  | .object members, .member name => members.lookup name
  | .array items, .item index => items[index]?
  | _, _ => none

/-- What is at the end of a path into a value. -/
def follow? (value : Json) (path : List Key) : Option Json := path.foldlM step? value

mutual
/-- Whether every integer of a value can be shown. -/
def isShowable : Json → Bool
  | .number n => n.textFault?.isNone
  | .array items => areShowable items
  | .object members => haveShowable members
  | _ => true

def areShowable : List Json → Bool
  | [] => true
  | item :: rest => isShowable item && areShowable rest

def haveShowable : List (String × Json) → Bool
  | [] => true
  | (_, value) :: rest => isShowable value && haveShowable rest
end

/-! ### Validators -/

/-- A validator: all errors of a document as it finds them, and the one that it raises first, if there
is any. It has no answer where it cannot show a value. -/
structure Validator where
  errors : Json → Except Integer.Oversize (List Violation)
  validate : Json → Except Integer.Oversize (Option Violation)

namespace Validator

/-- What is assumed of validators. -/
structure Lawful (validator : Validator) : Prop where
  errors_eq_nil (document : Json) :
    validator.errors document = .ok [] ↔ Shape.quest.accepts document = true
  validate_eq_none (document : Json) :
    validator.validate document = .ok none ↔ Shape.quest.accepts document = true
  errors_answer {document : Json} (hShow : isShowable document = true) :
    ∃ errors, validator.errors document = .ok errors
  validate_answers {document : Json} (hShow : isShowable document = true) :
    ∃ found, validator.validate document = .ok found
  follow?_isSome {document : Json} {errors : List Violation} {error : Violation}
    (hErrors : validator.errors document = .ok errors) (hMem : error ∈ errors) :
    (follow? document error.path).isSome = true

/-- The reports of all errors, in the order of their paths. -/
def reports (validator : Validator) (document : Json) : Except Integer.Oversize (List String) :=
  (validator.errors document).map fun errors => (sortByPath errors).map Violation.report

/-- The validator that looks for the violations of the format. -/
def ofFormat : Validator :=
  ⟨fun document => .ok (violations document), fun document => .ok (firstViolation? document)⟩

end Validator

end QuestScript.Document

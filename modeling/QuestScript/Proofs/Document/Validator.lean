import QuestScript.Document.Validator
import QuestScript.Proofs.Document.Acceptance
/-!
Validators of documents. Whatever validator is taken, it finds nothing wrong just with the documents
that are accepted. The one that looks for the violations of the format is such a validator: it accepts
what has no violation, and each violation that it finds is somewhere in the document.
-/

namespace QuestScript.Document

/-! ### Acceptance and violations -/

namespace Shape

theorem emptyViolations_eq_nil_iff (value : Json) :
    emptyViolations value = [] ↔ isEmptyText value = false := by
  cases value <;> simp [emptyViolations, isEmptyText]

theorem negativeViolations_eq_nil_iff (value : Json) :
    negativeViolations value = [] ↔ isBelowZero value = false := by
  cases value <;> simp [negativeViolations, isBelowZero]

mutual
/-- A value has a shape just if it has no violation of it. -/
theorem accepts_iff (shape : Shape) (value : Json) :
    shape.accepts value = true ↔ shape.Accepts value := by
  cases shape with
  | scalar types nonEmpty nonNegative =>
      rw [scalar_accepts_iff, emptyViolations_eq_nil_iff, negativeViolations_eq_nil_iff, accepts]
      cases nonEmpty <;> cases nonNegative <;> simp [and_assoc]
  | array items =>
      rw [array_accepts_iff]
      cases value <;> simp [accepts, accepts_iff items]
  | record required shapes =>
      rw [record_accepts_iff]
      cases value with
      | object members =>
          rw [accepts, Bool.and_eq_true, Bool.and_eq_true, membersAccept_iff shapes members,
            and_right_comm]
          simp [and_assoc]
      | _ => simp [accepts]
  | dictionary values =>
      rw [dictionary_accepts_iff]
      cases value <;> simp [accepts, accepts_iff values]
  | anyOf options => rw [anyOf_accepts_iff, accepts, someAccepts_iff options]

/-- Members that no shape names are left to the check of unexpected members. -/
theorem membersAccept_iff (shapes : List (String × Shape)) (members : List (String × Json)) :
    membersAccept shapes members = true ↔
      ∀ entry ∈ shapes, ∀ found, members.lookup entry.1 = some found →
        entry.2.Accepts found := by
  cases shapes with
  | nil => simp [membersAccept]
  | cons entry shapes =>
      obtain ⟨name, shape⟩ := entry
      rw [membersAccept, Bool.and_eq_true, membersAccept_iff shapes, List.forall_mem_cons]
      cases members.lookup name with
      | none => simp
      | some value => simp [accepts_iff shape]

theorem someAccepts_iff (options : List Shape) (value : Json) :
    someAccepts options value = true ↔ ∃ option ∈ options, option.Accepts value := by
  cases options with
  | nil => simp [someAccepts]
  | cons option options =>
      rw [someAccepts, Bool.or_eq_true, accepts_iff option, someAccepts_iff options]
      simp
end

end Shape

/-! ### Places of violations -/

theorem follow?_cons (value : Json) (key : Key) (path : List Key) :
    follow? value (key :: path) = (step? value key).bind fun inner => follow? inner path :=
  List.foldlM_cons

/-- A path is followed key by key, so a longer path is followed from where the shorter one ended.
-/
theorem follow?_append (value : Json) (path more : List Key) :
    follow? value (path ++ more) = (follow? value path).bind fun inner => follow? inner more :=
  List.foldlM_append

/-- A violation is somewhere in a value. -/
def Violation.IsIn (violation : Violation) (value : Json) : Prop :=
  (follow? value violation.path).isSome = true

/-- What is wrong with the value as a whole is where no step leads. -/
theorem Violation.isIn_of_path_eq_nil {violation : Violation} (hPath : violation.path = [])
    (value : Json) : violation.IsIn value := by
  rw [IsIn, hPath]
  rfl

/-- A violation inside a member lies in the whole document once the key of the member is put
before its path. -/
theorem Violation.IsIn.under {violation : Violation} {value inner : Json} {key : Key}
    (hStep : step? value key = some inner) (isIn : violation.IsIn inner) :
    (violation.under key).IsIn value := by
  rwa [IsIn, Violation.under, follow?_cons, hStep]

namespace Shape

/-- The violations of a shape by a value are somewhere in it, whatever the value is. -/
def Located (shape : Shape) : Prop :=
  ∀ value, ∀ violation ∈ shape.violations value, violation.IsIn value

theorem typeViolations_path (types : List ValueType) (value : Json) :
    ∀ violation ∈ typeViolations types value, violation.path = [] := by
  unfold typeViolations
  split <;> simp [Violation.here]

theorem emptyViolations_path (value : Json) :
    ∀ violation ∈ emptyViolations value, violation.path = [] := by
  cases value with
  | string text =>
      unfold emptyViolations
      split <;> simp [Violation.here]
  | _ => exact nofun

theorem negativeViolations_path (value : Json) :
    ∀ violation ∈ negativeViolations value, violation.path = [] := by
  cases value with
  | number n =>
      unfold negativeViolations
      split <;> simp [Violation.here]
  | _ => exact nofun

theorem missingViolations_path (required : List String) (members : List (String × Json)) :
    ∀ violation ∈ missingViolations required members, violation.path = [] :=
  List.forall_mem_map.2 fun _ _ => rfl

theorem unexpectedViolations_path (known : List String) (members : List (String × Json)) :
    ∀ violation ∈ unexpectedViolations known members, violation.path = [] := by
  dsimp only [unexpectedViolations]
  split <;> simp [Violation.here]

/-- A scalar has no inner values, so all of its violations lie at the value itself. -/
theorem scalarViolations_path (types : List ValueType) (nonEmpty nonNegative : Bool) (value : Json) :
    ∀ violation ∈ (scalar types nonEmpty nonNegative).violations value, violation.path = [] := by
  intro violation hMem
  rw [violations, List.mem_append, List.mem_append] at hMem
  rcases hMem with (hType | hEmpty) | hNegative
  · exact typeViolations_path _ _ _ hType
  · split at hEmpty
    · exact emptyViolations_path _ _ hEmpty
    · cases hEmpty
  · split at hNegative
    · exact negativeViolations_path _ _ hNegative
    · cases hNegative

/-- A violation of an array is one of an item, with the index of that item put before its path. -/
theorem mem_itemViolations {check : Json → List Violation} {index : Nat} {items : List Json}
    {violation : Violation} (hMem : violation ∈ itemViolations check index items) :
    ∃ offset item, items[offset]? = some item ∧
      ∃ inner ∈ check item, inner.under (.item (index + offset)) = violation := by
  induction items generalizing index with
  | nil => cases hMem
  | cons item items ih =>
      rw [itemViolations, List.mem_append] at hMem
      rcases hMem with hFirst | hRest
      · exact ⟨0, item, rfl, List.mem_map.1 hFirst⟩
      · obtain ⟨offset, other, hOther, hInner⟩ := ih hRest
        refine ⟨offset + 1, other, hOther, ?_⟩
        rwa [Nat.add_comm offset, ← Nat.add_assoc]

/-- A violation of a dictionary is one of a value, found under the name of that value. -/
theorem mem_valueViolations {check : Json → List Violation} {members : List (String × Json)}
    {violation : Violation} (hMem : violation ∈ valueViolations check members) :
    ∃ member ∈ members, ∃ inner ∈ check member.2, inner.under (.member member.1) = violation := by
  induction members with
  | nil => cases hMem
  | cons member members ih =>
      rw [valueViolations, List.mem_append] at hMem
      rcases hMem with hFirst | hRest
      · exact ⟨member, List.mem_cons_self, List.mem_map.1 hFirst⟩
      · obtain ⟨other, hOther, hInner⟩ := ih hRest
        exact ⟨other, List.mem_cons_of_mem _ hOther, hInner⟩

/-- A violation of a record is one of a member that the record lists, found under its name. -/
theorem mem_memberViolations {shapes : List (String × Shape)} {members : List (String × Json)}
    {violation : Violation} (hMem : violation ∈ memberViolations shapes members) :
    ∃ entry ∈ shapes, ∃ value, members.lookup entry.1 = some value ∧
      ∃ inner ∈ entry.2.violations value, inner.under (.member entry.1) = violation := by
  induction shapes with
  | nil => cases hMem
  | cons entry shapes ih =>
      rw [memberViolations, List.mem_append] at hMem
      rcases hMem with hFirst | hRest
      · split at hFirst
        · next value hValue =>
            exact ⟨entry, List.mem_cons_self, value, hValue, List.mem_map.1 hFirst⟩
        · cases hFirst
      · obtain ⟨entry', hEntry, hInner⟩ := ih hRest
        exact ⟨entry', List.mem_cons_of_mem _ hEntry, hInner⟩

theorem located_scalar (types : List ValueType) (nonEmpty nonNegative : Bool) :
    (scalar types nonEmpty nonNegative).Located := fun value violation hMem =>
  Violation.isIn_of_path_eq_nil (scalarViolations_path _ _ _ value violation hMem) value

/-- What is wrong under each of the options is not told, only that none of them fits. -/
theorem located_anyOf (options : List Shape) : (anyOf options).Located := by
  intro value violation hMem
  rw [violations] at hMem
  split at hMem
  · cases hMem
  · cases List.mem_singleton.1 hMem
    exact Violation.isIn_of_path_eq_nil rfl value

/-- Paths into an array start with an index the array has. -/
theorem Located.array {items : Shape} (located : items.Located) : (array items).Located := by
  intro value violation hMem
  unfold violations at hMem
  rcases List.mem_append.1 hMem with hType | hItems
  · exact Violation.isIn_of_path_eq_nil (typeViolations_path _ _ _ hType) value
  · split at hItems
    · obtain ⟨offset, item, hItem, inner, hInner, rfl⟩ := mem_itemViolations hItems
      rw [Nat.zero_add]
      exact (located item inner hInner).under hItem
    · cases hItems

/-- A member of a dictionary is found by its name, but another member of that name may come before it.
So it is said only of values that have nothing wrong inside. -/
theorem located_dictionary (types : List ValueType) (nonEmpty nonNegative : Bool) :
    (dictionary (scalar types nonEmpty nonNegative)).Located := by
  intro value violation hMem
  unfold violations at hMem
  rcases List.mem_append.1 hMem with hType | hValues
  · exact Violation.isIn_of_path_eq_nil (typeViolations_path _ _ _ hType) value
  · split at hValues
    · next members =>
        obtain ⟨member, hMember, inner, hInner, rfl⟩ := mem_valueViolations hValues
        have hPath := scalarViolations_path _ _ _ _ inner hInner
        cases hFound : members.lookup member.1 with
        | none =>
            rw [List.lookup_eq_none_iff] at hFound
            simpa using hFound member (List.mem_reverse.1 hMember)
        | some found =>
            exact (Violation.isIn_of_path_eq_nil hPath found).under hFound
    · cases hValues

/-- Paths into a record start with the name of one of its members. -/
theorem located_record (required : List String) {shapes : List (String × Shape)}
    (located : ∀ entry ∈ shapes, entry.2.Located) : (record required shapes).Located := by
  intro value violation hMem
  unfold violations at hMem
  rcases List.mem_append.1 hMem with hType | hMembers
  · exact Violation.isIn_of_path_eq_nil (typeViolations_path _ _ _ hType) value
  · split at hMembers
    · rw [List.mem_append, List.mem_append] at hMembers
      rcases hMembers with (hMissing | hFound) | hUnexpected
      · exact Violation.isIn_of_path_eq_nil (missingViolations_path _ _ _ hMissing) _
      · obtain ⟨entry, hEntry, found, hLookup, inner, hInner, rfl⟩ := mem_memberViolations hFound
        exact (located entry hEntry found inner hInner).under hLookup
      · exact Violation.isIn_of_path_eq_nil (unexpectedViolations_path _ _ _ hUnexpected) _
    · cases hMembers

theorem located_action : action.Located :=
  located_record _ (by
    simp only [List.forall_mem_cons]
    exact ⟨located_scalar _ _ _, (located_scalar _ _ _).array, located_scalar _ _ _, nofun⟩)

theorem located_rule : rule.Located :=
  located_record _ (by
    simp only [List.forall_mem_cons]
    exact ⟨located_scalar _ _ _, (located_scalar _ _ _).array, located_scalar _ _ _,
      located_scalar _ _ _, nofun⟩)

theorem located_state : state.Located :=
  located_record _ (by
    simp only [List.forall_mem_cons]
    exact ⟨located_scalar _ _ _, located_scalar _ _ _, located_action.array, located_rule.array,
      nofun⟩)

theorem located_randomTarget : randomTarget.Located :=
  located_record _ (by
    simp only [List.forall_mem_cons]
    exact ⟨located_scalar _ _ _, located_scalar _ _ _, nofun⟩)

theorem located_randomBlock : randomBlock.Located :=
  located_record _ (by
    simp only [List.forall_mem_cons]
    exact ⟨located_scalar _ _ _, located_randomTarget.array, nofun⟩)

/-- Every violation of a quest document has a path that can be followed from the root. -/
theorem located_quest : quest.Located :=
  located_record _ (by
    simp only [List.forall_mem_cons]
    exact ⟨located_scalar _ _ _, located_scalar _ _ _, located_scalar _ _ _, located_scalar _ _ _,
      located_scalar _ _ _, located_scalar _ _ _, located_scalar _ _ _, located_scalar _ _ _,
      located_scalar _ _ _, located_scalar _ _ _, located_scalar _ _ _, located_scalar _ _ _,
      located_dictionary _ _ _, located_anyOf _, located_state.array, located_randomBlock.array,
      nofun⟩)

end Shape

/-! ### Validators -/

namespace Validator

variable {validator : Validator}

/-- A validator has nothing to report of the documents that are accepted, and of no other. -/
theorem Lawful.reports_eq_nil_iff (lawful : validator.Lawful) (document : Json) :
    validator.reports document = .ok [] ↔ Shape.quest.Accepts document := by
  rw [← Shape.accepts_iff, ← lawful.errors_eq_nil, reports]
  cases validator.errors document with
  | error fault => exact iff_of_false nofun nofun
  | ok errors =>
      have hLength : (sortByPath errors).length = errors.length := List.length_mergeSort _
      rw [Except.map, Except.ok.injEq, Except.ok.injEq, ← List.length_eq_zero_iff,
        ← List.length_eq_zero_iff, List.length_map, hLength]

/-- A lawful validator reports nothing exactly on the documents that Draft 7 accepts. -/
theorem Lawful.validate_eq_none_iff (lawful : validator.Lawful) (document : Json) :
    validator.validate document = .ok none ↔ Shape.quest.Accepts document := by
  rw [lawful.validate_eq_none, Shape.accepts_iff]

/-- Looking for the violations of the format is validating. -/
theorem ofFormat_lawful : ofFormat.Lawful where
  errors_eq_nil document := by
    rw [Shape.accepts_iff, ofFormat, Except.ok.injEq]
    rfl
  validate_eq_none document := by
    rw [Shape.accepts_iff, ← firstViolation?_eq_none_iff, ofFormat, Except.ok.injEq]
  errors_answer _ := ⟨_, rfl⟩
  validate_answers _ := ⟨_, rfl⟩
  follow?_isSome hErrors hMem := by
    cases hErrors
    exact Shape.located_quest _ _ hMem

end Validator

end QuestScript.Document

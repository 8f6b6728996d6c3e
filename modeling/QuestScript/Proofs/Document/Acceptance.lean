import QuestScript.Document.Format
import Mathlib.Data.List.Forall2
/-!
What the shapes of documents accept, said without their violations.
-/

namespace QuestScript.Document

/-- A value has a shape: it does not violate it. -/
def Shape.Accepts (shape : Shape) (value : Json) : Prop := shape.violations value = []

theorem reports_eq_nil_iff (document : Json) :
    reports document = [] ↔ Shape.quest.Accepts document := by
  rw [reports, List.map_eq_nil_iff, sortByPath, ← List.length_eq_zero_iff, List.length_mergeSort,
    List.length_eq_zero_iff]
  rfl

/-- A document has no first violation exactly when Draft 7 accepts it, since sorting drops
nothing. -/
theorem firstViolation?_eq_none_iff (document : Json) :
    firstViolation? document = none ↔ Shape.quest.Accepts document :=
  List.head?_eq_none_iff

namespace Shape

theorem typeViolations_eq_nil_iff (types : List ValueType) (value : Json) :
    typeViolations types value = [] ↔ ∃ type ∈ types, type.accepts value = true := by
  simp [typeViolations]

/-- A scalar is accepted when one of the listed types fits and the bounds asked for hold. The
bounds bear only on values of their own type, as the keywords of Draft 7 do. -/
theorem scalar_accepts_iff {types : List ValueType} {nonEmpty nonNegative : Bool} {value : Json} :
    (scalar types nonEmpty nonNegative).Accepts value ↔
      (∃ type ∈ types, type.accepts value = true) ∧
        (nonEmpty = true → emptyViolations value = []) ∧
        (nonNegative = true → negativeViolations value = []) := by
  simp [Accepts, violations, typeViolations_eq_nil_iff]

theorem itemViolations_eq_nil_iff (check : Json → List Violation) (index : Nat)
    (items : List Json) :
    itemViolations check index items = [] ↔ ∀ item ∈ items, check item = [] := by
  induction items generalizing index with
  | nil => simp [itemViolations]
  | cons item items ih => simp [itemViolations, ih]

theorem valueViolations_eq_nil_iff (check : Json → List Violation)
    (members : List (String × Json)) :
    valueViolations check members = [] ↔ ∀ member ∈ members, check member.2 = [] := by
  induction members with
  | nil => simp [valueViolations]
  | cons member members ih => simp [valueViolations, ih]

/-- An array is accepted when every item is, whatever the length. -/
theorem array_accepts_iff {items : Shape} {value : Json} :
    (array items).Accepts value ↔
      ∃ values, value = .array values ∧ ∀ item ∈ values, items.Accepts item := by
  cases value <;>
    simp [Accepts, violations, typeViolations, ValueType.accepts, itemViolations_eq_nil_iff]

/-- A dictionary bounds the values of its members and leaves their names free. -/
theorem dictionary_accepts_iff {values : Shape} {value : Json} :
    (dictionary values).Accepts value ↔
      ∃ members, value = .object members ∧ ∀ member ∈ members, values.Accepts member.2 := by
  cases value <;>
    simp [Accepts, violations, typeViolations, ValueType.accepts, valueViolations_eq_nil_iff]

theorem memberViolations_eq_nil_iff (shapes : List (String × Shape))
    (members : List (String × Json)) :
    memberViolations shapes members = [] ↔
      ∀ entry ∈ shapes, ∀ value, members.lookup entry.1 = some value → entry.2.Accepts value := by
  induction shapes with
  | nil => simp [memberViolations]
  | cons entry shapes ih =>
      obtain ⟨name, shape⟩ := entry
      rw [memberViolations, List.append_eq_nil_iff, ih, List.forall_mem_cons]
      apply and_congr_left'
      cases members.lookup name <;> simp [Accepts]

theorem missingViolations_eq_nil_iff (required : List String) (members : List (String × Json)) :
    missingViolations required members = [] ↔ ∀ name ∈ required, name ∈ members.map Prod.fst := by
  simp [missingViolations]

theorem unexpectedViolations_eq_nil_iff (known : List String) (members : List (String × Json)) :
    unexpectedViolations known members = [] ↔ ∀ member ∈ members, member.1 ∈ known := by
  simp [unexpectedViolations]

/-- A record is accepted when it is an object that has every required member, no unknown one, and
an accepted value under each name it lists. -/
theorem record_accepts_iff {required : List String} {shapes : List (String × Shape)}
    {value : Json} :
    (record required shapes).Accepts value ↔
      ∃ members, value = .object members ∧
        (∀ name ∈ required, name ∈ members.map Prod.fst) ∧
        (∀ entry ∈ shapes, ∀ found, members.lookup entry.1 = some found → entry.2.Accepts found) ∧
        ∀ member ∈ members, member.1 ∈ shapes.map Prod.fst := by
  cases value <;>
    simp [Accepts, violations, typeViolations, ValueType.accepts, missingViolations_eq_nil_iff,
      memberViolations_eq_nil_iff, unexpectedViolations_eq_nil_iff]

theorem anyAccepts_iff (options : List Shape) (value : Json) :
    anyAccepts options value = true ↔ ∃ option ∈ options, option.Accepts value := by
  induction options with
  | nil => simp [anyAccepts]
  | cons option options ih => simp [anyAccepts, ih, Accepts]

/-- An alternative is accepted when one of its options is. The violations of the others are not
kept. -/
theorem anyOf_accepts_iff {options : List Shape} {value : Json} :
    (anyOf options).Accepts value ↔ ∃ option ∈ options, option.Accepts value := by
  simp [Accepts, violations, anyAccepts_iff]

/-! ### Records that are accepted -/

/-- A required member of a record is there and has its shape. -/
theorem Accepts.required {required : List String} {shapes : List (String × Shape)} {value : Json}
    (accepts : (record required shapes).Accepts value) {name : String} {shape : Shape}
    (hRequired : name ∈ required) (hShape : (name, shape) ∈ shapes) :
    ∃ found, value.member? name = some found ∧ shape.Accepts found := by
  obtain ⟨members, rfl, hThere, hShapes, _⟩ := record_accepts_iff.1 accepts
  obtain ⟨member, hMember, rfl⟩ := List.mem_map.1 (hThere name hRequired)
  cases hFound : members.lookup member.1 with
  | none =>
      rw [List.lookup_eq_none_iff] at hFound
      simpa using hFound member hMember
  | some found => exact ⟨found, hFound, hShapes _ hShape found hFound⟩

/-- A member of a record has its shape if it is there. -/
theorem Accepts.member {required : List String} {shapes : List (String × Shape)} {value : Json}
    (accepts : (record required shapes).Accepts value) {name : String} {shape : Shape}
    (hShape : (name, shape) ∈ shapes) {found : Json} (hFound : value.member? name = some found) :
    shape.Accepts found := by
  obtain ⟨members, rfl, _, hShapes, _⟩ := record_accepts_iff.1 accepts
  exact hShapes _ hShape found hFound

end Shape

/-! ### Records that are written -/

/-- The members that are written of those that have a value. -/
def present (fields : List (String × Option Json)) : List (String × Json) :=
  fields.filterMap fun field => field.2.map fun value => (field.1, value)

theorem mem_keys_present {fields : List (String × Option Json)} {name : String} :
    name ∈ (present fields).map Prod.fst ↔ ∃ value, (name, some value) ∈ fields := by
  simp [present]

/-- Looking up a field in an object that leaves out absent fields gives the field itself, provided
that no name stands twice. -/
theorem lookup_present {fields : List (String × Option Json)}
    (hDistinct : (fields.map Prod.fst).Nodup) (name : String) :
    (present fields).lookup name = (fields.lookup name).join := by
  induction fields with
  | nil => rfl
  | cons field fields ih =>
      obtain ⟨key, value⟩ := field
      rw [List.map_cons, List.nodup_cons] at hDistinct
      have hRest := ih hDistinct.2
      cases value with
      | some value =>
          show List.lookup name ((key, value) :: present fields) = _
          rw [List.lookup_cons, List.lookup_cons, hRest]
          split <;> rfl
      | none =>
          show List.lookup name (present fields) = _
          rw [hRest, List.lookup_cons]
          split
          · next hKey =>
              -- the key is left out here, and it is not among those that follow
              have hSame : name = key := by simpa using hKey
              have hNone : fields.lookup name = none := by
                rw [List.lookup_eq_none_iff]
                intro field hMem
                have hOther : name ≠ field.1 := by
                  rintro rfl
                  exact hDistinct.1 (hSame ▸ List.mem_map.2 ⟨field, hMem, rfl⟩)
                simpa using hOther
              rw [hNone]
              rfl
          · rfl

/-- The members of an object meet their shapes field by field. The two lists name the same fields
in the same order, so no lookup is left in the condition. -/
theorem forall_lookup_iff_forall₂ {fields : List (String × Option Json)}
    {shapes : List (String × Shape)} (hNames : fields.map Prod.fst = shapes.map Prod.fst)
    (hDistinct : (shapes.map Prod.fst).Nodup) :
    (∀ entry ∈ shapes, ∀ found, fields.lookup entry.1 = some (some found) →
      entry.2.Accepts found) ↔
      List.Forall₂ (fun field entry => ∀ found ∈ field.2, entry.2.Accepts found) fields shapes := by
  induction shapes generalizing fields with
  | nil =>
      have hNil : fields = [] := by simpa using hNames
      subst hNil
      simp
  | cons entry shapes ih =>
      cases fields with
      | nil => cases hNames
      | cons field fields =>
          obtain ⟨hName, hNames⟩ := List.cons.inj hNames
          rw [List.map_cons, List.nodup_cons] at hDistinct
          rw [List.forall_mem_cons, List.forall₂_cons, ← ih hNames hDistinct.2]
          apply and_congr
          · rw [← hName, List.lookup_cons_self]
            simp
          · apply forall₂_congr
            intro other hOther
            have hNe : other.1 ≠ field.1 := by
              rintro hSame
              exact hDistinct.1 (List.mem_map.2 ⟨other, hOther, hSame.trans hName⟩)
            rw [List.lookup_cons, beq_eq_false_iff_ne.2 hNe]

/-- A record that is written is accepted if each member has the shape of its name. The members are
in the order of the shapes, and the required ones are there. -/
theorem Shape.record_accepts_present_iff {required : List String}
    {shapes : List (String × Shape)} {fields : List (String × Option Json)}
    (hNames : fields.map Prod.fst = shapes.map Prod.fst)
    (hDistinct : (shapes.map Prod.fst).Nodup)
    (hRequired : ∀ name ∈ required, ∃ value, (name, some value) ∈ fields) :
    (record required shapes).Accepts (.object (present fields)) ↔
      List.Forall₂ (fun field entry => ∀ found ∈ field.2, entry.2.Accepts found) fields shapes := by
  rw [← forall_lookup_iff_forall₂ hNames hDistinct, record_accepts_iff]
  constructor
  · rintro ⟨members, hMembers, _, hShapes, _⟩ entry hEntry found hFound
    cases hMembers
    apply hShapes entry hEntry found
    rw [lookup_present (hNames ▸ hDistinct), hFound]
    rfl
  · intro hShapes
    refine ⟨present fields, rfl, ?_, ?_, ?_⟩
    · intro name hName
      exact mem_keys_present.2 (hRequired name hName)
    · intro entry hEntry found hFound
      rw [lookup_present (hNames ▸ hDistinct)] at hFound
      exact hShapes entry hEntry found (Option.join_eq_some_iff.1 hFound)
    · intro member hMember
      obtain ⟨value, hField⟩ := mem_keys_present.1 (List.mem_map.2 ⟨member, hMember, rfl⟩)
      rw [← hNames]
      exact List.mem_map.2 ⟨_, hField, rfl⟩

end QuestScript.Document

import QuestScript.Proofs.Document.Validator
/-!
The order of reports. Every error is somewhere in the document, so where the paths of two errors part,
both go on with a name or both with an index: an object has no items, and an array no members. An order
that cannot compare a name with an index therefore compares any two of them, and the reports are sorted
by it.
-/

namespace QuestScript.Document

/-! ### Steps that can be compared -/

/-- Two steps that can be compared: two names, or two indexes. -/
inductive Key.SameKind : Key → Key → Prop where
  | members (left right : String) : SameKind (.member left) (.member right)
  | items (left right : Nat) : SameKind (.item left) (.item right)

/-- Whether a step comes before another; none for a name and an index, which do not compare. -/
def Key.lt? : Key → Key → Option Bool
  | .member left, .member right => some (decide (left < right))
  | .item left, .item right => some (decide (left < right))
  | _, _ => none

/-- Whether a path comes before another, as lists compare: by the first steps in which they differ.
None if these do not compare. -/
def pathLt? : List Key → List Key → Option Bool
  | [], right => some (!right.isEmpty)
  | _ :: _, [] => some false
  | left :: lefts, right :: rights => if left = right then pathLt? lefts rights else left.lt? right

theorem Key.SameKind.exists_lt? {left right : Key} (hKind : left.SameKind right) :
    ∃ less, left.lt? right = some less := by
  cases hKind with
  | members left right => exact ⟨_, rfl⟩
  | items left right => exact ⟨_, rfl⟩

/-! ### Paths into one document -/

/-- The steps into one value are all names or all indexes. -/
theorem sameKind_of_step? {value inner other : Json} {left right : Key}
    (hLeft : step? value left = some inner) (hRight : step? value right = some other) :
    left.SameKind right := by
  cases value with
  | object members =>
      cases left with
      | item index => cases hLeft
      | member name =>
          cases right with
          | item index => cases hRight
          | member name' => exact .members _ _
  | array items =>
      cases left with
      | member name => cases hLeft
      | item index =>
          cases right with
          | member name => cases hRight
          | item index' => exact .items _ _
  | null | bool | number | string => cases left <;> cases hLeft

/-- Paths into one value compare. -/
theorem exists_pathLt? {value inner other : Json} {left right : List Key}
    (hLeft : follow? value left = some inner) (hRight : follow? value right = some other) :
    ∃ less, pathLt? left right = some less := by
  induction left generalizing value right with
  | nil => exact ⟨_, rfl⟩
  | cons key left ih =>
      cases right with
      | nil => exact ⟨_, rfl⟩
      | cons key' right =>
          rw [follow?_cons, Option.bind_eq_some_iff] at hLeft hRight
          obtain ⟨next, hStep, hLeft⟩ := hLeft
          obtain ⟨next', hStep', hRight⟩ := hRight
          rw [pathLt?]
          split
          · next hKey =>
              -- the same step leads to the same value, in which the rests of both paths are followed
              subst hKey
              cases hStep.symm.trans hStep'
              exact ih hLeft hRight
          · exact (sameKind_of_step? hStep hStep').exists_lt?

/-- Where two paths into one value part, they go on alike. -/
theorem sameKind_of_follow? {value inner other : Json} {shared left right : List Key}
    {key key' : Key} (hLeft : follow? value (shared ++ key :: left) = some inner)
    (hRight : follow? value (shared ++ key' :: right) = some other) : key.SameKind key' := by
  rw [follow?_append, Option.bind_eq_some_iff] at hLeft hRight
  obtain ⟨middle, hShared, hLeft⟩ := hLeft
  obtain ⟨middle', hShared', hRight⟩ := hRight
  cases hShared.symm.trans hShared'
  rw [follow?_cons, Option.bind_eq_some_iff] at hLeft hRight
  obtain ⟨_, hStep, -⟩ := hLeft
  obtain ⟨_, hStep', -⟩ := hRight
  exact sameKind_of_step? hStep hStep'

/-! ### The order of paths -/

instance : Std.OrientedCmp Key.compare where
  eq_swap {left right} := by
    cases left <;> cases right
    · exact Std.OrientedOrd.eq_swap
    · rfl
    · rfl
    · exact Std.OrientedOrd.eq_swap

instance : Std.TransCmp Key.compare where
  isLE_trans {first second third} := by
    cases first <;> cases second <;> cases third <;> intro hFirst hSecond
    · exact Std.TransOrd.isLE_trans hFirst hSecond
    · rfl
    · cases hSecond
    · rfl
    · cases hFirst
    · cases hFirst
    · cases hSecond
    · exact Std.TransOrd.isLE_trans hFirst hSecond

instance : Std.LawfulEqCmp Key.compare where
  compare_self {key} := by
    cases key <;> exact Std.ReflOrd.compare_self
  eq_of_compare {left right} hEq := by
    cases left <;> cases right
    · exact congrArg _ (Std.LawfulEqOrd.eq_of_compare hEq)
    · cases hEq
    · cases hEq
    · exact congrArg _ (Std.LawfulEqOrd.eq_of_compare hEq)

theorem Key.compare_eq_iff {left right : Key} : left.compare right = .eq ↔ left = right :=
  Std.LawfulEqCmp.compare_eq_iff_eq

/-- The comparison of the program and the lexicographic one are the same order on paths. -/
theorem pathLe_eq_isLE (left right : List Key) :
    pathLe left right = (List.compareLex Key.compare left right).isLE := by
  induction left generalizing right with
  | nil => cases right <;> rfl
  | cons key left ih =>
      cases right with
      | nil => rfl
      | cons key' right =>
          rw [pathLe, List.compareLex_cons_cons, ih]
          cases key.compare key' <;> rfl

theorem pathLe_trans (first second third : List Key) (hFirst : pathLe first second = true)
    (hSecond : pathLe second third = true) : pathLe first third = true := by
  rw [pathLe_eq_isLE] at hFirst hSecond ⊢
  exact Std.TransCmp.isLE_trans hFirst hSecond

theorem compareLex_swap (left right : List Key) :
    List.compareLex Key.compare right left = (List.compareLex Key.compare left right).swap :=
  Std.OrientedCmp.eq_swap

/-- Any two paths are in order one way or the other. -/
theorem pathLe_total (left right : List Key) : (pathLe left right || pathLe right left) = true := by
  rw [pathLe_eq_isLE, pathLe_eq_isLE, compareLex_swap left]
  cases List.compareLex Key.compare left right <;> rfl

theorem pathLe_refl (path : List Key) : pathLe path path = true := by
  simpa using pathLe_total path path

theorem pathLe_antisymm {left right : List Key} (hLeft : pathLe left right = true)
    (hRight : pathLe right left = true) : left = right := by
  rw [pathLe_eq_isLE] at hLeft hRight
  exact Std.LawfulEqCmp.eq_of_compare (Std.OrientedCmp.isLE_antisymm hLeft hRight)

theorem Key.lt?_eq_isLT {left right : Key} {less : Bool} (hLess : left.lt? right = some less) :
    less = (left.compare right).isLT := by
  cases left <;> cases right <;> cases hLess
  · rw [Bool.eq_iff_iff, decide_eq_true_iff, Ordering.isLT_iff_eq_lt]
    exact compareOfLessAndEq_eq_lt.symm
  · rw [Bool.eq_iff_iff, decide_eq_true_iff, Ordering.isLT_iff_eq_lt]
    exact Nat.compare_eq_lt.symm

/-- Where the comparison of two paths is defined at all, it agrees with the total order. -/
theorem pathLt?_eq_isLT {left right : List Key} {less : Bool}
    (hLess : pathLt? left right = some less) :
    less = (List.compareLex Key.compare left right).isLT := by
  induction left generalizing right with
  | nil => cases right <;> cases hLess <;> rfl
  | cons key left ih =>
      cases right with
      | nil =>
          cases hLess
          rfl
      | cons key' right =>
          rw [List.compareLex_cons_cons]
          rw [pathLt?] at hLess
          split at hLess
          · next hKey =>
              rw [Key.compare_eq_iff.2 hKey]
              exact ih hLess
          · next hKey =>
              have hNe : key.compare key' ≠ .eq := mt Key.compare_eq_iff.1 hKey
              rw [Key.lt?_eq_isLT hLess]
              cases hCompare : key.compare key' with
              | eq => exact absurd hCompare hNe
              | lt => rfl
              | gt => rfl

/-- Where two paths compare, the order that compares any two agrees. -/
theorem pathLe_of_pathLt? {left right : List Key} {less : Bool}
    (hLess : pathLt? right left = some less) : pathLe left right = !less := by
  rw [pathLt?_eq_isLT hLess, pathLe_eq_isLE, compareLex_swap]
  cases List.compareLex Key.compare right left <;> rfl

/-! ### Sorting by paths -/

def Violation.isAt (path : List Key) (violation : Violation) : Bool := violation.path = path

/-- What sorting violations by their paths gives: the same violations, none of them behind one that
it comes before, and those of one path in their order. This needs their paths to compare. -/
structure SortsInto (found sorted : List Violation) : Prop where
  perm : sorted.Perm found
  ordered : sorted.Pairwise fun earlier later => pathLt? later.path earlier.path = some false
  stable : ∀ path, sorted.filter (Violation.isAt path) = found.filter (Violation.isAt path)

/-- Violations in the order of their paths. -/
def InOrder (found : List Violation) : Prop :=
  found.Pairwise fun left right => pathLe left.path right.path = true

theorem Violation.isAt_iff {path : List Key} {violation : Violation} :
    violation.isAt path = true ↔ violation.path = path := decide_eq_true_iff

theorem Violation.path_of_mem_filter {found : List Violation} {path : List Key} {violation : Violation}
    (hMem : violation ∈ found.filter (Violation.isAt path)) : violation.path = path :=
  isAt_iff.1 (List.mem_filter.1 hMem).2

/-- Violations at one path are in order among themselves, so a stable sort keeps them as they were
found. -/
theorem inOrder_filter (found : List Violation) (path : List Key) :
    InOrder (found.filter (Violation.isAt path)) := by
  refine List.pairwise_iff_forall_sublist.2 fun {left right} hSublist => ?_
  have hLeft : left.path = path := Violation.path_of_mem_filter (hSublist.subset (by simp))
  have hRight : right.path = path := Violation.path_of_mem_filter (hSublist.subset (by simp))
  rw [hLeft, hRight]
  exact pathLe_refl path

theorem sortByPath_perm (found : List Violation) : (sortByPath found).Perm found :=
  List.mergeSort_perm _ _

/-- The sorted violations are in order of path. -/
theorem inOrder_sortByPath (found : List Violation) : InOrder (sortByPath found) :=
  List.pairwise_mergeSort (fun first second third => pathLe_trans first.path second.path third.path)
    (fun left right => pathLe_total left.path right.path) found

/-- Sorting is stable: a part of the list that is in order already stays in its order. -/
theorem InOrder.sublist_sortByPath {part found : List Violation} (inOrder : InOrder part)
    (hPart : part.Sublist found) : part.Sublist (sortByPath found) :=
  List.sublist_mergeSort (fun first second third => pathLe_trans first.path second.path third.path)
    (fun left right => pathLe_total left.path right.path) inOrder hPart

/-- Sorting changes nothing among the violations at one path. -/
theorem filter_sortByPath (found : List Violation) (path : List Key) :
    (sortByPath found).filter (Violation.isAt path) = found.filter (Violation.isAt path) := by
  have hSublist := ((inOrder_filter found path).sublist_sortByPath List.filter_sublist).filter
    (Violation.isAt path)
  rw [List.filter_filter] at hSublist
  simp only [Bool.and_self] at hSublist
  have hPerm := (sortByPath_perm found).filter (Violation.isAt path)
  exact (hSublist.eq_of_length hPerm.length_eq.symm).symm

/-- Violations whose paths compare are sorted. -/
theorem sortsInto_sortByPath {found : List Violation}
    (hCompare : ∀ left ∈ found, ∀ right ∈ found,
      ∃ less, pathLt? left.path right.path = some less) : SortsInto found (sortByPath found) where
  perm := sortByPath_perm found
  ordered := by
    refine List.Pairwise.imp_of_mem ?_ (inOrder_sortByPath found)
    intro earlier later hEarlier hLater hLe
    obtain ⟨less, hLess⟩ := hCompare later (List.mem_mergeSort.1 hLater) earlier
      (List.mem_mergeSort.1 hEarlier)
    cases less with
    | false => exact hLess
    | true => exact absurd (hLe.symm.trans (pathLe_of_pathLt? hLess)) (by decide)
  stable := filter_sortByPath found

theorem InOrder.le_of_mem {first violation : Violation} {rest : List Violation}
    (inOrder : InOrder (first :: rest)) (hMem : violation ∈ first :: rest) :
    pathLe first.path violation.path = true := by
  rcases List.mem_cons.1 hMem with rfl | hMem
  · exact pathLe_refl _
  · exact (List.pairwise_cons.1 inOrder).1 _ hMem

/-- Two lists with the same violations at each path hold the same violations. -/
theorem mem_of_filter_isAt {found found' : List Violation}
    (hSame : ∀ path, found.filter (Violation.isAt path) = found'.filter (Violation.isAt path))
    {violation : Violation} (hMem : violation ∈ found) : violation ∈ found' := by
  have hAt : violation ∈ found.filter (Violation.isAt violation.path) :=
    List.mem_filter.2 ⟨hMem, Violation.isAt_iff.2 rfl⟩
  rw [hSame] at hAt
  exact List.mem_of_mem_filter hAt

/-- Violations in order are known by those of each path. -/
theorem InOrder.eq_of_filter {found found' : List Violation} (inOrder : InOrder found)
    (inOrder' : InOrder found')
    (hSame : ∀ path, found.filter (Violation.isAt path) = found'.filter (Violation.isAt path)) :
    found = found' := by
  induction found generalizing found' with
  | nil =>
      cases found' with
      | nil => rfl
      | cons first rest =>
          cases mem_of_filter_isAt (fun path => (hSame path).symm) List.mem_cons_self
  | cons first rest ih =>
      cases found' with
      | nil => cases mem_of_filter_isAt hSame List.mem_cons_self
      | cons first' rest' =>
          -- both first ones have the least path, and they are the first ones of it
          have hPath : first.path = first'.path :=
            pathLe_antisymm
              (inOrder.le_of_mem
                (mem_of_filter_isAt (fun path => (hSame path).symm) List.mem_cons_self))
              (inOrder'.le_of_mem (mem_of_filter_isAt hSame List.mem_cons_self))
          have hLeast := hSame first.path
          rw [List.filter_cons_of_pos (Violation.isAt_iff.2 rfl),
            List.filter_cons_of_pos (Violation.isAt_iff.2 hPath.symm)] at hLeast
          obtain ⟨rfl, hRest⟩ := List.cons.inj hLeast
          congr 1
          refine ih (List.pairwise_cons.1 inOrder).2 (List.pairwise_cons.1 inOrder').2 fun path => ?_
          by_cases hFirst : first.isAt path = true
          · rw [← Violation.isAt_iff.1 hFirst, hRest]
          · have hPathSame := hSame path
            rwa [List.filter_cons_of_neg hFirst, List.filter_cons_of_neg hFirst] at hPathSame

/-- Sorting has one result. -/
theorem SortsInto.unique {found sorted sorted' : List Violation} (sorts : SortsInto found sorted)
    (sorts' : SortsInto found sorted') : sorted = sorted' :=
  InOrder.eq_of_filter (sorts.ordered.imp pathLe_of_pathLt?) (sorts'.ordered.imp pathLe_of_pathLt?)
    fun path => (sorts.stable path).trans (sorts'.stable path).symm

/-! ### Reports -/

/-- Where the paths of two errors of a document part, both go on with a name or both with an index. So
any two paths compare, and the reports are those of the errors as sorting leaves them, which is in one
way only. There are none just if validating raises nothing. This is so of every validator that finds
its errors in the document. -/
theorem reports_wellOrdered {validator : Validator} (lawful : validator.Lawful) (document : Json) :
    (∀ found, validator.errors document = .ok found →
      (∀ left ∈ found, ∀ right ∈ found,
        (∀ shared key key' more more', left.path = shared ++ key :: more →
          right.path = shared ++ key' :: more' → key.SameKind key') ∧
        ∃ less, pathLt? left.path right.path = some less) ∧
      ∃ sorted, SortsInto found sorted ∧ (∀ other, SortsInto found other → other = sorted) ∧
        validator.reports document = .ok (sorted.map Violation.report)) ∧
    (validator.reports document = .ok [] ↔ validator.validate document = .ok none) := by
  constructor
  · intro found hFound
    have hPlace : ∀ error ∈ found, ∃ inner, follow? document error.path = some inner :=
      fun error hMem => Option.isSome_iff_exists.1 (lawful.follow?_isSome hFound hMem)
    have hCompare : ∀ left ∈ found, ∀ right ∈ found,
        ∃ less, pathLt? left.path right.path = some less := by
      intro left hLeft right hRight
      obtain ⟨_, hLeft⟩ := hPlace left hLeft
      obtain ⟨_, hRight⟩ := hPlace right hRight
      exact exists_pathLt? hLeft hRight
    have sorts := sortsInto_sortByPath hCompare
    refine ⟨fun left hLeft right hRight => ⟨?_, hCompare left hLeft right hRight⟩,
      ⟨_, sorts, fun _ sorts' => sorts'.unique sorts, ?_⟩⟩
    · intro shared key key' more more' hPath hPath'
      obtain ⟨_, hLeft⟩ := hPlace left hLeft
      obtain ⟨_, hRight⟩ := hPlace right hRight
      rw [hPath] at hLeft
      rw [hPath'] at hRight
      exact sameKind_of_follow? hLeft hRight
    · rw [Validator.reports, hFound]
      rfl
  · rw [lawful.reports_eq_nil_iff, lawful.validate_eq_none_iff]

/-- Errors at the root, below a name and below indexes compare; a path with an index and one with a name
in the same place would not. -/
theorem reports_wellOrdered_sample :
    let document : Json := .object [("states", .array [.bool true, .object [("name", .string "")]]),
      ("extraMetadata", .object [("k", .array [])])]
    ∃ found sorted, Validator.ofFormat.Lawful ∧ Validator.ofFormat.errors document = .ok found ∧
      found.map Violation.path =
        [[], [.member "extraMetadata", .member "k"], [.member "states", .item 0],
          [.member "states", .item 1, .member "name"]] ∧
      SortsInto found sorted ∧
      Validator.ofFormat.reports document = .ok (sorted.map Violation.report) ∧
      Validator.ofFormat.validate document ≠ .ok none ∧
      pathLt? [.member "states", .item 0] [.member "states", .member "name"] = none := by
  intro document
  have hPaths : (violations document).map Violation.path =
      [[], [.member "extraMetadata", .member "k"], [.member "states", .item 0],
        [.member "states", .item 1, .member "name"]] := by decide +kernel
  obtain ⟨hSorted, hNone⟩ := reports_wellOrdered Validator.ofFormat_lawful document
  obtain ⟨-, sorted, sorts, -, hReports⟩ := hSorted _ rfl
  refine ⟨_, sorted, Validator.ofFormat_lawful, rfl, hPaths, sorts, hReports, ?_, by decide⟩
  intro hValid
  rw [← hNone, hReports, Except.ok.injEq, List.map_eq_nil_iff] at hValid
  have hNil : violations document = [] := List.nil_perm.1 (hValid ▸ sorts.perm)
  rw [hNil] at hPaths
  cases hPaths

end QuestScript.Document

import QuestScript.Files.FilePath
import QuestScript.Proofs.Text.Lines
/-!
Paths and their texts. The path of a text is read back from the text that it is shown as, and so is the
path of a name in it.
-/

namespace QuestScript.FilePath

open QuestScript.Text

/-- A name that stands in a path: it is neither empty nor a single point, and has no slash in it. -/
structure IsPart (part : String) : Prop where
  notEmpty : part ≠ ""
  notPoint : part ≠ "."
  noSlash : '/' ∉ part.toList

/-- A path as texts give it. -/
structure Normal (path : FilePath) : Prop where
  root : path.root ∈ ["", "/", "//"]
  parts : ∀ part ∈ path.parts, IsPart part

variable {path : FilePath} {name : String}

/-- A root is no slash, one or two. Three and more count as one. -/
theorem rootOf_mem (text : List Char) : rootOf text ∈ ["", "/", "//"] := by
  rw [rootOf]
  split <;> simp

/-- Every path read from a text is normal: its root is one of the three and its parts are names.
-/
theorem normal_ofString (text : String) : (ofString text).Normal := by
  refine ⟨rootOf_mem text.toList, fun part hMem => ?_⟩
  obtain ⟨piece, hPiece, rfl⟩ := List.mem_map.1 hMem
  obtain ⟨hSplit, hKept⟩ := List.mem_filter.1 hPiece
  rw [Bool.and_eq_true, Bool.not_eq_true', List.isEmpty_eq_false_iff, bne_iff_ne] at hKept
  refine ⟨fun hEmpty => hKept.1 ?_, fun hPoint => hKept.2 ?_, ?_⟩
  · simpa using congrArg String.toList hEmpty
  · simpa using congrArg String.toList hPoint
  · rw [String.toList_ofList]
    exact notMem_of_mem_splitAtChar hSplit

theorem Normal.push (hNormal : path.Normal) (hName : IsPart name) : (path.push name).Normal := by
  refine ⟨hNormal.root, fun part hMem => ?_⟩
  rcases List.mem_append.1 hMem with hOld | hNew
  · exact hNormal.parts part hOld
  · rw [List.mem_singleton.1 hNew]
    exact hName

/-- The names of a path, with slashes between them, begin with no slash. -/
theorem takeWhile_joined {parts : List String} (hParts : ∀ part ∈ parts, IsPart part) :
    ("/".intercalate parts).toList.takeWhile (· = '/') = [] := by
  cases parts with
  | nil => rfl
  | cons part parts =>
      have hFirst := hParts part List.mem_cons_self
      obtain ⟨c, rest, hChars⟩ := List.exists_cons_of_ne_nil
        (fun hNone => hFirst.notEmpty (String.toList_inj.1 hNone) : part.toList ≠ [])
      have hNoSlash : c ≠ '/' := by
        rintro rfl
        exact hFirst.noSlash (hChars ▸ List.mem_cons_self)
      have hBegins : ∃ more, ("/".intercalate (part :: parts)).toList = c :: more := by
        by_cases hNone : parts = []
        · exact ⟨rest, by simp [hNone, hChars]⟩
        · exact ⟨_, by rw [String.intercalate_cons_of_ne_nil hNone, String.toList_append,
            String.toList_append, hChars, List.cons_append, List.cons_append]⟩
      obtain ⟨more, hMore⟩ := hBegins
      rw [hMore, List.takeWhile_cons_of_neg (by simpa using hNoSlash)]

/-- Every name of a path counts. -/
theorem filter_parts {parts : List String} (hParts : ∀ part ∈ parts, IsPart part) :
    ((parts.map String.toList).filter fun part => !part.isEmpty && part != ['.']) =
      parts.map String.toList := by
  refine List.filter_eq_self.2 fun chars hMem => ?_
  obtain ⟨part, hPart, rfl⟩ := List.mem_map.1 hMem
  have hIs := hParts part hPart
  have hSome : part.toList ≠ [] := fun hNone => hIs.notEmpty (String.toList_inj.1 hNone)
  have hOther : part.toList ≠ ['.'] := fun hPoint => hIs.notPoint (String.toList_inj.1 hPoint)
  rw [Bool.and_eq_true, Bool.not_eq_true', List.isEmpty_eq_false_iff, bne_iff_ne]
  exact ⟨hSome, hOther⟩

/-- A root is found again in front of a text that does not start with a slash. -/
theorem rootOf_append {root : String} (hRoot : root ∈ ["", "/", "//"]) {text : List Char}
    (hText : text.takeWhile (· = '/') = []) : rootOf (root.toList ++ text) = root := by
  simp only [List.mem_cons, List.not_mem_nil, or_false] at hRoot
  rcases hRoot with rfl | rfl | rfl <;> simp [rootOf, hText]

/-- The slashes of a root leave empty names in front, which do not count. -/
theorem filter_splitAtChar_append {root : String} (hRoot : root ∈ ["", "/", "//"])
    (text : List Char) :
    ((splitAtChar '/' (root.toList ++ text)).filter fun part => !part.isEmpty && part != ['.']) =
      (splitAtChar '/' text).filter fun part => !part.isEmpty && part != ['.'] := by
  simp only [List.mem_cons, List.not_mem_nil, or_false] at hRoot
  rcases hRoot with rfl | rfl | rfl <;> simp [splitAtChar]

/-- A path is read back from its text. -/
theorem ofString_toString (hNormal : path.Normal) : ofString path.toString = path := by
  obtain ⟨root, parts⟩ := path
  obtain ⟨hRoot, hParts⟩ := hNormal
  by_cases hNone : parts = []
  · subst hNone
    simp only [List.mem_cons, List.not_mem_nil, or_false] at hRoot
    rcases hRoot with rfl | rfl | rfl <;> decide
  · have hSplit : splitAtChar '/' ("/".intercalate parts).toList = parts.map String.toList :=
      splitAtChar_intercalate hNone fun part hMem => (hParts part hMem).noSlash
    have hText : toString ⟨root, parts⟩ = root ++ "/".intercalate parts := by
      rw [toString, if_neg (by simp [hNone])]
    rw [ofString, hText, String.toList_append, rootOf_append hRoot (takeWhile_joined hParts),
      filter_splitAtChar_append hRoot, hSplit, filter_parts hParts, List.map_map]
    simp [Function.comp_def]

end QuestScript.FilePath

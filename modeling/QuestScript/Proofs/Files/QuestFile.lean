import QuestScript.Files.QuestStore
import QuestScript.Proofs.Files.FileSystem
import QuestScript.Proofs.Number.Limit
import QuestScript.Proofs.Text.Classes
/-!
Names of quest files: the name that is made from a number is the name of a quest file, and gives the
number back if that has few enough digits. No two numbers have one name, however long the numbers are.
-/

namespace QuestScript

open QuestScript.Text

/-! ### Names and their suffixes -/

/-- Each character of a text takes a byte at least. -/
theorem length_le_utf8ByteSize (cs : List Char) : cs.length ≤ (String.ofList cs).utf8ByteSize := by
  induction cs with
  | nil => exact Nat.zero_le _
  | cons c cs ih =>
      have hSize := c.utf8Size_pos
      have hSplit : String.ofList (c :: cs) = String.singleton c ++ String.ofList cs := by
        rw [← String.toList_inj, String.toList_append, String.toList_singleton, String.toList_ofList,
          String.toList_ofList, List.singleton_append]
      rw [hSplit, String.utf8ByteSize_append, String.utf8ByteSize_singleton, List.length_cons]
      omega

namespace FilePath

/-- A name is split before its last point. -/
theorem splitName_extension {stem extension : List Char} (hStem : stem ≠ [])
    (hExtension : extension ≠ []) (hPoint : '.' ∉ extension) :
    splitName (stem ++ '.' :: extension) = (stem, '.' :: extension) := by
  have hOthers : ∀ c ∈ extension.reverse, decide (c ≠ '.') = true := by
    intro c hMem
    rw [decide_eq_true_eq]
    rintro rfl
    exact hPoint (List.mem_reverse.1 hMem)
  have hReverse : (stem ++ '.' :: extension).reverse = extension.reverse ++ '.' :: stem.reverse := by
    simp
  rw [splitName, hReverse, List.takeWhile_append_of_pos hOthers, List.dropWhile_append_of_pos hOthers,
    List.takeWhile_cons_of_neg (by decide), List.dropWhile_cons_of_neg (by decide)]
  simp [hStem, hExtension]

end FilePath

/-! ### Digits as whole numbers -/

namespace Integer

theorem isMargin_of_isBlank {c : Char} (hBlank : isBlank c = false) : isMargin c = false := by
  rw [isMargin, hBlank, Bool.false_and]

theorem dropWhile_isMargin {cs : List Char} (hChars : ∀ c ∈ cs, isBlank c = false) :
    cs.dropWhile isMargin = cs := by
  cases cs with
  | nil => rfl
  | cons c rest =>
      exact List.dropWhile_cons_of_neg (by simp [isMargin_of_isBlank (hChars c (by simp))])

theorem dropMargins_eq_self {cs : List Char} (hChars : ∀ c ∈ cs, isBlank c = false) :
    dropMargins cs = cs := by
  have hReverse : ∀ c ∈ cs.reverse, isBlank c = false :=
    fun c hMem => hChars c (List.mem_reverse.1 hMem)
  rw [dropMargins, dropWhile_isMargin hChars, dropWhile_isMargin hReverse, List.reverse_reverse]

/-- Where there are no underscores, there are no groups to be joined. -/
theorem joinGroups_eq {c : Char} {rest : List Char} (hPlain : ∀ d ∈ rest, d ≠ '_') :
    joinGroups (c :: rest) = if (c :: rest).all isDecimal then some (c :: rest) else none := by
  induction rest generalizing c with
  | nil => simp [joinGroups]
  | cons next rest ih =>
      obtain ⟨hNext, hMore⟩ := List.forall_mem_cons.1 hPlain
      have hStep : joinGroups (c :: next :: rest) =
          if isDecimal c then (joinGroups (next :: rest)).map (c :: ·) else none := by
        rw [joinGroups]
        · simp
        · simpa using hNext
      rw [hStep, ih hMore]
      cases hFirst : isDecimal c with
      | false => rw [if_neg Bool.false_ne_true, if_neg (by simp [hFirst])]
      | true =>
          have hAll : (c :: next :: rest).all isDecimal = (next :: rest).all isDecimal := by
            simp [hFirst]
          rw [if_pos rfl, hAll]
          split <;> rfl

/-- Zeros in front change no number, which is why padded file names are read as their numbers. -/
theorem readDigits_replicate_zero (count : Nat) (digits : List Char) :
    readDigits (List.replicate count '0' ++ digits) = readDigits digits := by
  induction count with
  | zero => rfl
  | succ count ih =>
      rw [List.replicate_succ, List.cons_append, readDigits, readDigitsFrom,
        decimalValue?_of_isDigit (by decide)]
      exact ih

theorem splitSign_eq_self {c : Char} (hDigit : Text.isDigit c = true) (rest : List Char) :
    splitSign (c :: rest) = (false, c :: rest) := by
  have hPlus : c ≠ '+' := ne_of_isDigit hDigit (by decide)
  have hMinus : c ≠ '-' := ne_of_isDigit hDigit (by decide)
  rw [splitSign] <;> simp [hPlus, hMinus]

/-- Digits are a whole number exactly if all of them are decimal and there are few enough of them. -/
theorem whole?_eq {cs : List Char} (hDigits : ∀ c ∈ cs, Text.isDigit c = true) (hSome : cs ≠ []) :
    whole? (String.ofList cs) =
      if cs.all isDecimal ∧ cs.length ≤ maxDigits then some (readDigits cs : Int) else none := by
  obtain ⟨c, rest, rfl⟩ := List.exists_cons_of_ne_nil hSome
  obtain ⟨hFirst, hMore⟩ := List.forall_mem_cons.1 hDigits
  have hPlain : ∀ d ∈ rest, d ≠ '_' := fun d hMem => ne_of_isDigit (hMore d hMem) (by decide)
  have hChars : ∀ d ∈ c :: rest, isBlank d = false :=
    fun d hMem => Text.isBlank_eq_false_of_isDigit (hDigits d hMem)
  rw [whole?, String.toList_ofList, dropMargins_eq_self hChars, splitSign_eq_self hFirst]
  dsimp only
  rw [joinGroups_eq hPlain]
  by_cases hDecimal : (c :: rest).all isDecimal = true
  · rw [if_pos hDecimal, Option.bind_some]
    exact if_congr (by simp [hDecimal]) rfl rfl
  · rw [if_neg hDecimal, if_neg (by simp [hDecimal]), Option.bind_none]

end Integer

/-! ### Names of quest files -/

namespace QuestFile

/-- The number of a stem of digits is that of its decimal digits. The first of its decimal digits are
counted before it is noticed that a digit behind them is not decimal. -/
theorem stemNumber_eq {stem : String} (hNumbered : isNumbered stem = true) :
    stemNumber stem =
      if Integer.maxDigits < (stem.toList.takeWhile isDecimal).length then
        .error (.oversize (.ofText (stem.toList.takeWhile isDecimal).length))
      else if stem.toList.all isDecimal then .ok (Integer.readDigits stem.toList : Int)
      else .error (.badDigits stem) := by
  rw [isNumbered, Bool.and_eq_true, List.all_eq_true] at hNumbered
  have hWhole := Integer.whole?_eq hNumbered.2 (by simpa using hNumbered.1)
  rw [String.ofList_toList] at hWhole
  rw [stemNumber, hWhole, Integer.digitsFault?]
  by_cases hMany : Integer.maxDigits < (stem.toList.takeWhile isDecimal).length
  · rw [if_pos hMany, if_neg (Nat.not_le.2 hMany)]
  · rw [if_neg hMany, if_pos (Nat.not_lt.1 hMany)]
    by_cases hDecimal : stem.toList.all isDecimal = true
    · have hAll : stem.toList.takeWhile isDecimal = stem.toList :=
        List.takeWhile_eq_self_iff.2 (List.all_eq_true.1 hDecimal)
      rw [hAll] at hMany
      rw [if_pos ⟨hDecimal, Nat.not_lt.1 hMany⟩, if_pos hDecimal]
    · rw [if_neg (fun hBoth => hDecimal hBoth.1), if_neg hDecimal]

/-- A path gives a number exactly if its stem is made of decimal digits, and of few enough. Digits that
are too many or not all decimal are told apart from stems that are not made of digits. -/
theorem number_eq (path : FilePath) :
    number path =
      if isNumbered path.stem then
        if Integer.maxDigits < (path.stem.toList.takeWhile isDecimal).length then
          .error (.oversize (.ofText (path.stem.toList.takeWhile isDecimal).length))
        else if path.stem.toList.all isDecimal then
          .ok (Integer.readDigits path.stem.toList : Int)
        else .error (.badDigits path.stem)
      else .error (.noNumber path.name) := by
  rw [number]
  by_cases hNumbered : isNumbered path.stem = true
  · rw [if_pos hNumbered, if_pos hNumbered, stemNumber_eq hNumbered]
  · rw [if_neg hNumbered, if_neg hNumbered]

theorem paddedDigits_isDigit (width magnitude : Nat) :
    ∀ c ∈ paddedDigits width magnitude, c.isDigit = true := by
  intro c hMem
  rcases List.mem_append.1 hMem with hZero | hDigit
  · rw [List.eq_of_mem_replicate hZero]
    decide
  · exact Nat.isDigit_of_mem_toDigits (by decide) (by decide) hDigit

theorem paddedDigits_ne_nil (width magnitude : Nat) : paddedDigits width magnitude ≠ [] :=
  List.append_ne_nil_of_right_ne_nil _ Nat.toDigits_ne_nil

/-- A padded number is read as the number. -/
theorem readDigits_paddedDigits (width magnitude : Nat) :
    Integer.readDigits (paddedDigits width magnitude) = magnitude := by
  rw [paddedDigits, Integer.readDigits_replicate_zero, Integer.readDigits_toDigits]

/-- Padding to a width within the limit makes no number longer than the limit. -/
theorem length_paddedDigits_le {width magnitude : Nat} (hWidth : width ≤ Integer.maxDigits)
    (hFits : Integer.fits magnitude = true) :
    (paddedDigits width magnitude).length ≤ Integer.maxDigits := by
  have hDigits := Integer.fits_iff_length.1 hFits
  rw [Int.natAbs_natCast] at hDigits
  rw [paddedDigits, List.length_append, List.length_replicate]
  omega

variable {id : Int}

/-- The name of a quest file is its number in at least five digits, with the suffix of quest
files. -/
theorem name_eq (hId : 0 ≤ id) :
    name id = String.ofList (paddedDigits 5 id.natAbs ++ suffix.toList) := by
  rw [name, if_neg (by omega), String.ofList_append, String.ofList_toList]

/-- The name of a quest file splits into its number and its suffix, as digits hold no dot. -/
theorem splitName_name (hId : 0 ≤ id) :
    FilePath.splitName (name id).toList = (paddedDigits 5 id.natAbs, suffix.toList) := by
  rw [name_eq hId, String.toList_ofList]
  exact FilePath.splitName_extension (paddedDigits_ne_nil 5 _) (by decide) (by decide)

variable (directory : FilePath)

theorem stem_push_name (hId : 0 ≤ id) :
    (directory.push (name id)).stem = String.ofList (paddedDigits 5 id.natAbs) := by
  rw [FilePath.stem, FilePath.push_name, splitName_name hId]

theorem suffix_push_name (hId : 0 ≤ id) : (directory.push (name id)).suffix = suffix := by
  rw [FilePath.suffix, FilePath.push_name, splitName_name hId, String.ofList_toList]

/-- A file saved under the number of a quest is taken for a quest file when the directory is
listed. -/
theorem isNumbered_push_name (hId : 0 ≤ id) :
    isNumbered (directory.push (name id)).stem = true := by
  rw [stem_push_name directory hId, isNumbered, String.toList_ofList, Bool.and_eq_true,
    List.all_eq_true]
  refine ⟨?_, fun c hMem => Integer.isDigit_of_isDigit (paddedDigits_isDigit 5 _ c hMem)⟩
  simp [paddedDigits_ne_nil]

/-- The number of a name comes back from it, if it has few enough digits. -/
theorem number_push_name (hId : 0 ≤ id) (hFits : Integer.fits id = true) :
    number (directory.push (name id)) = .ok id := by
  have hDecimal : ∀ c ∈ paddedDigits 5 id.natAbs, isDecimal c = true :=
    fun c hMem => Integer.isDecimal_of_isDigit (paddedDigits_isDigit 5 _ c hMem)
  have hFew : ¬Integer.maxDigits < (paddedDigits 5 id.natAbs).length := by
    rw [← Int.natAbs_of_nonneg hId] at hFits
    exact Nat.not_lt.2 (length_paddedDigits_le (by decide) hFits)
  rw [number_eq, if_pos (isNumbered_push_name directory hId), stem_push_name directory hId,
    String.toList_ofList, List.takeWhile_eq_self_iff.2 hDecimal, if_neg hFew,
    if_pos (List.all_eq_true.2 hDecimal), readDigits_paddedDigits, Int.natAbs_of_nonneg hId]

/-- Quests of different numbers have files of different names. -/
theorem name_injective {id other : Int} (hId : 0 ≤ id) (hOther : 0 ≤ other)
    (hName : name id = name other) : id = other := by
  have hDigits := congrArg (fun name => Integer.readDigits (FilePath.splitName name.toList).1) hName
  simp only [splitName_name hId, splitName_name hOther, readDigits_paddedDigits] at hDigits
  rw [← Int.natAbs_of_nonneg hId, ← Int.natAbs_of_nonneg hOther, hDigits]

/-- The name made from a number is that of a quest file. -/
theorem isQuestFile_name (hId : 0 ≤ id) : QuestStore.isQuestFile (name id) = true := by
  have hPath : (⟨"", [name id]⟩ : FilePath) = (⟨"", []⟩ : FilePath).push (name id) := rfl
  have hLowered : lowered suffix = suffix := by decide
  rw [QuestStore.isQuestFile, hPath, suffix_push_name _ hId, isNumbered_push_name _ hId, hLowered]
  simp

/-- The name made from a number is that of a file in its directory. -/
theorem name_leadsDown (hId : 0 ≤ id) : FileSystem.LeadsDown (name id) := by
  constructor
  · rw [name_eq hId, String.toList_ofList, List.mem_append, not_or]
    refine ⟨fun hMem => ?_, by decide⟩
    exact absurd (paddedDigits_isDigit 5 _ _ hMem) (by decide)
  · intro hName
    have hSuffix := congrArg Prod.snd (splitName_name hId)
    rw [hName] at hSuffix
    exact absurd hSuffix (by decide : (FilePath.splitName "..".toList).2 ≠ suffix.toList)

/-- The name made from a number has its digits in it, and there is no room for too many. -/
theorem fits_of_hasRoom {files : FileSystem} {directory : FilePath} (hId : 0 ≤ id)
    (hRoom : files.HasRoom (directory.push (name id))) : Integer.fits id = true := by
  have hBytes := length_le_utf8ByteSize (paddedDigits 5 id.natAbs ++ suffix.toList)
  obtain ⟨front, hPath⟩ := FilePath.exists_toString_push directory (name id)
  have hName := hRoom.path
  have hLimit := files.limits.pathBytes_le
  have hDigits : (Nat.toDigits 10 id.natAbs).length ≤ (paddedDigits 5 id.natAbs).length := by
    rw [paddedDigits, List.length_append]
    exact Nat.le_add_left _ _
  rw [hPath, String.utf8ByteSize_append, name_eq hId] at hName
  rw [List.length_append] at hBytes
  rw [Integer.fits_iff_length, Integer.maxDigits]
  omega

end QuestFile

end QuestScript

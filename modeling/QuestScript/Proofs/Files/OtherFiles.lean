import QuestScript.Proofs.Files.Directory
import QuestScript.Proofs.Files.QuestFile
/-!
Files in a directory that are no quest files. Loading the quests of a directory passes over them, with
two exceptions: a quest file whose digits are too many or not all decimal, such as a superscript, fails
the whole directory, and so does a name for whose path there is no room, which every file is looked at
under.
-/

namespace QuestScript

namespace QuestStore

open FileSystem

variable {files files' : FileSystem} {directory place path : FilePath} {name : String}
  {bytes : List UInt8}

/-! ### What loading looks at -/

/-- Loading a quest looks at one path, so it is the same in two file systems that agree there. -/
theorem load_congr (schema : Schema) (hFound : files'.found path = files.found path) :
    load schema files' path = load schema files path := by
  rw [load, load, TextFile.read_eq, TextFile.read_eq, read_congr hFound]

/-- The quest files of a directory with their numbers, by the names of its files. -/
theorem numbered_eq (files : FileSystem) (directory : FilePath) :
    numbered files directory =
      match (files.list directory).map (List.filter isQuestFile) with
      | .error fault => .error (.unreadable (.file fault))
      | .ok names =>
        match names.mapM fun name =>
          (QuestFile.number (directory.push name)).map fun number => (number, directory.push name) with
        | .error error => .error (.badName error)
        | .ok found => .ok (found.mergeSort fun left right => decide (left.1 ≤ right.1)) := by
  rw [numbered]
  cases files.list directory <;> rfl

/-- Only quest files of the directory are loaded. -/
theorem exists_of_mem_numbered {found : List (Int × FilePath)}
    (hFound : numbered files directory = .ok found) {entry : Int × FilePath} (hMem : entry ∈ found) :
    ∃ name, isQuestFile name = true ∧ entry.2 = directory.push name := by
  rw [numbered] at hFound
  split at hFound
  · cases hFound
  · split at hFound
    · cases hFound
    · next names _ _ read hRead =>
        cases hFound
        obtain ⟨name, hName, hEntry⟩ := exists_of_mem_mapM hRead (List.mem_mergeSort.1 hMem)
        obtain ⟨number, -, rfl⟩ := exists_of_map_eq_ok hEntry
        exact ⟨name, (List.mem_filter.1 hName).2, rfl⟩

/-- A directory in which the quest files are the same, and lead to what they led to before, is loaded
as before. -/
theorem loadDirectory_congr (schema : Schema)
    (hList : (files'.list directory).map (List.filter isQuestFile) =
      (files.list directory).map (List.filter isQuestFile))
    (hFound : ∀ name, isQuestFile name = true →
      files'.found (directory.push name) = files.found (directory.push name)) :
    loadDirectory schema files' directory = loadDirectory schema files directory := by
  have hNumbered : numbered files' directory = numbered files directory := by
    rw [numbered_eq, numbered_eq, hList]
  rw [loadDirectory, loadDirectory, hNumbered]
  cases hEntries : numbered files directory with
  | error fault => rfl
  | ok found =>
      apply foldlM_congr
      intro entry hMem loaded
      obtain ⟨name, hName, hPath⟩ := exists_of_mem_numbered hEntries hMem
      rw [Loaded.take, Loaded.take, hPath, load_congr schema (hFound name hName)]

/-! ### Directories with one file more -/

/-- The quest files of a directory are the listed files with the right suffix, sorted by their
text. -/
theorem list_filter_eq (hDirectory : files.locate directory = .ok place)
    (hNode : files.node? place = some .directory) :
    (files.list directory).map (List.filter isQuestFile) =
      files.filesOfKind directory isQuestFile (files.namesIn place) := by
  rw [list_eq_onlyFiles hDirectory hNode, filesOfKind]

/-- A file that is no quest file and has room changes nothing. -/
theorem loadDirectory_withFile (schema : Schema) (hDirectory : files.locate directory = .ok place)
    (hNode : files.node? place = some .directory) (hName : LeadsDown name)
    (hFree : files.node? (place.push name) ≠ some .directory) (bytes : List UInt8)
    (hRoom : files.HasRoom (directory.push name)) (hOther : isQuestFile name = false) :
    loadDirectory schema (files.withFile (place.push name) bytes) directory =
      loadDirectory schema files directory := by
  have hGrows := grows_withFile (place.isTop_push hName.notUp) hFree bytes
  apply loadDirectory_congr
  · rw [list_filter_eq hDirectory hNode,
      list_filter_eq (hGrows.locate hDirectory) (hGrows.directories place hNode)]
    exact filesOfKind_withFile hDirectory hNode hName hFree bytes hRoom hOther
  · intro questFile hQuest
    apply found_withFile hDirectory hNode hName hFree bytes
    rintro rfl
    rw [hOther] at hQuest
    cases hQuest

/-! ### Names that fail a directory -/

/-- The faults of names. -/
inductive LoadFault.OfName : LoadFault → Prop
  | badDigits (stem : String) : LoadFault.OfName (.badName (.badDigits stem))
  | oversize (fault : Integer.Oversize) : LoadFault.OfName (.badName (.oversize fault))
  | tooLong {fault : Fault} (hCause : fault.cause = .nameTooLong) :
      LoadFault.OfName (.unreadable (.file fault))

/-- A quest file has no number only for its digits: they are too many, or not all decimal. -/
theorem ofName_of_isQuestFile (hQuest : isQuestFile name = true) {error : QuestFile.NameError}
    (hNumber : QuestFile.number (directory.push name) = .error error) :
    (LoadFault.badName error).OfName := by
  have hStem : (directory.push name).stem = (⟨"", [name]⟩ : FilePath).stem := by
    rw [FilePath.stem, FilePath.push_name]
    rfl
  have hNumbered : QuestFile.isNumbered (directory.push name).stem = true := by
    rw [hStem]
    rw [isQuestFile, Bool.and_eq_true] at hQuest
    exact hQuest.2
  rw [QuestFile.number_eq, if_pos hNumbered] at hNumber
  split at hNumber
  · cases hNumber
    exact .oversize _
  · split at hNumber
    · cases hNumber
    · cases hNumber
      exact .badDigits _

/-- One quest file whose digits are no number fails the list of them. -/
theorem numbered_of_badName {names : List String} (hList : files.list directory = .ok names)
    (hMem : name ∈ names) (hQuest : isQuestFile name = true) {error : QuestFile.NameError}
    (hNumber : QuestFile.number (directory.push name) = .error error) :
    ∃ fault, numbered files directory = .error fault ∧ fault.OfName := by
  obtain ⟨other, hError, culprit, hCulprit, hRead⟩ := mapM_eq_error
    (fun name => (QuestFile.number (directory.push name)).map fun number =>
      (number, directory.push name)) (List.mem_filter.2 ⟨hMem, hQuest⟩) (map_eq_error_iff.2 hNumber)
  refine ⟨.badName other, ?_,
    ofName_of_isQuestFile (List.mem_filter.1 hCulprit).2 (map_eq_error_iff.1 hRead)⟩
  rw [numbered, hList]
  dsimp only
  rw [hError]

/-- A quest file without a number fails the directory, and so does any file without room. -/
theorem loadDirectory_of_badName (schema : Schema) (hDirectory : files.locate directory = .ok place)
    (hNode : files.node? place = some .directory) (hName : LeadsDown name)
    (hFile : files.node? (place.push name) = some (.file bytes))
    (hBad : (isQuestFile name = true ∧ ∃ error, QuestFile.number (directory.push name) = .error error) ∨
      ¬files.HasRoom (directory.push name)) :
    ∃ fault, loadDirectory schema files directory = .error fault ∧ fault.OfName := by
  have hList := list_eq_onlyFiles hDirectory hNode
  cases hFiles : files.onlyFiles directory (files.namesIn place) with
  | error fault =>
      refine ⟨.unreadable (.file fault), ?_, .tooLong (cause_of_onlyFiles hFiles)⟩
      rw [loadDirectory, numbered, hList, hFiles]
  | ok names =>
      obtain ⟨isFile, hIs, hKept⟩ := isFile_of_onlyFiles hFiles (mem_namesIn_of_file hFile)
      have hRoom : files.HasRoom (directory.push name) := by
        by_contra hNone
        rw [isFile_of_noRoom hDirectory hNode hName hNone] at hIs
        cases hIs
      rw [isFile_eq_true (locate_push hDirectory hNode hName hRoom) hFile] at hIs
      cases hIs
      obtain ⟨hQuest, error, hNumber⟩ := hBad.resolve_right (not_not_intro hRoom)
      obtain ⟨fault, hNumbered, hOfName⟩ :=
        numbered_of_badName (hList.trans hFiles) (hKept rfl) hQuest hNumber
      refine ⟨fault, ?_, hOfName⟩
      rw [loadDirectory, hNumbered]

/-- What names do to loading. A path gives an integer if its stem is made of decimal digits that are not
too many, and has no number if a character of it is no digit; digits that are too many and digits that
are not all decimal are faults of their own.
A file in a directory that is no quest file changes nothing, whatever is in it, so long as there is
room for its path. A file that is a quest file for the digits of its name, which are no number, fails
the whole directory, and so does any file without room. -/
theorem numbers_and_other_files (schema : Schema) :
    (∀ path, QuestFile.number path =
      if QuestFile.isNumbered path.stem then
        if Integer.maxDigits < (path.stem.toList.takeWhile Text.isDecimal).length then
          .error (.oversize (.ofText (path.stem.toList.takeWhile Text.isDecimal).length))
        else if path.stem.toList.all Text.isDecimal then
          .ok (Integer.readDigits path.stem.toList : Int)
        else .error (.badDigits path.stem)
      else .error (.noNumber path.name)) ∧
    ∀ {files : FileSystem} {directory place : FilePath}, files.locate directory = .ok place →
      files.node? place = some .directory → ∀ name, LeadsDown name →
      files.node? (place.push name) ≠ some .directory → ∀ bytes,
        (isQuestFile name = false → files.HasRoom (directory.push name) →
          loadDirectory schema (files.withFile (place.push name) bytes) directory =
            loadDirectory schema files directory) ∧
        ((isQuestFile name = true ∧
            ∃ error, QuestFile.number (directory.push name) = .error error) ∨
          ¬files.HasRoom (directory.push name) →
          ∃ fault, loadDirectory schema (files.withFile (place.push name) bytes) directory =
            .error fault ∧ fault.OfName) := by
  refine ⟨QuestFile.number_eq, fun {files directory place} hDirectory hNode name hName hFree bytes =>
    ⟨fun hOther hRoom => ?_, fun hBad => ?_⟩⟩
  · exact loadDirectory_withFile schema hDirectory hNode hName hFree bytes hRoom hOther
  · have hTop := place.isTop_push hName.notUp
    have hGrows := grows_withFile hTop hFree bytes
    have hFile : (files.withFile (place.push name) bytes).node? (place.push name) =
        some (.file bytes) := by
      rw [node?_withFile hTop, if_pos rfl]
    have hRoomOf : (files.withFile (place.push name) bytes).HasRoom (directory.push name) →
        files.HasRoom (directory.push name) := fun hRoom => ⟨hRoom.name, hRoom.path⟩
    exact loadDirectory_of_badName schema (hGrows.locate hDirectory) (hGrows.directories place hNode)
      hName hFile (hBad.imp_right (mt hRoomOf))

/-- Of two files that are written to a directory with one quest, notes do not count, and the digits of a
name that begins with a superscript fail the directory. -/
theorem numbers_and_other_files_sample :
    let directory : FilePath := ⟨"", ["quests"]⟩
    let quest : FilePath := ⟨"", ["quests", "00012.eqf"]⟩
    let files : FileSystem :=
      ⟨(Table.empty.put directory .directory).put quest (.file []), Limits.usual⟩
    (isQuestFile "notes.txt" = false ∧
      loadDirectory Schema.empty (files.withFile (directory.push "notes.txt") [255]) directory =
        loadDirectory Schema.empty files directory) ∧
    QuestFile.number (directory.push "²3.eqf") = .error (.badDigits "²3") ∧
      isQuestFile "²3.eqf" = true ∧
      ∃ fault, loadDirectory Schema.empty (files.withFile (directory.push "²3.eqf") []) directory =
        .error fault ∧ fault.OfName := by
  intro directory quest files
  have hDirectory : files.locate directory = .ok directory := by decide +kernel
  have hNode : files.node? directory = some .directory := by decide +kernel
  obtain ⟨-, hFiles⟩ := numbers_and_other_files Schema.empty
  have hNotes := hFiles hDirectory hNode "notes.txt" ⟨by decide, by decide⟩
    (by decide +kernel) [255]
  have hDigits := hFiles hDirectory hNode "²3.eqf" ⟨by decide, by decide⟩
    (by decide +kernel) []
  have hNumber : QuestFile.number (directory.push "²3.eqf") = .error (.badDigits "²3") := by
    decide +kernel
  have hQuest : isQuestFile "²3.eqf" = true := by decide +kernel
  have hNotQuest : isQuestFile "notes.txt" = false := by decide +kernel
  exact ⟨⟨hNotQuest, hNotes.1 hNotQuest ⟨by decide +kernel, by decide +kernel⟩⟩, hNumber, hQuest,
    hDigits.2 (Or.inl ⟨hQuest, _, hNumber⟩)⟩

end QuestStore

end QuestScript

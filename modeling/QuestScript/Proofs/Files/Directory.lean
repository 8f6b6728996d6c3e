import QuestScript.Proofs.Files.FilePath
import QuestScript.Proofs.Files.FileSystem
/-!
One more file in a directory, or another content of a file. All other names of the directory lead to
what they led to before, and the names are listed in the same order.

What is listed is looked at under its path in the directory, so a name for whose path there is no room
fails the whole list.
-/

namespace QuestScript

namespace FilePath

/-- Climbing out of a place never ends below that place under a name that leads down. -/
theorem climb_ne_push (path : FilePath) {name : String} (hName : name ≠ "..") :
    path.climb ≠ path.push name := by
  intro hEq
  have hParts := congrArg (fun place : FilePath => place.parts) hEq
  unfold climb at hParts
  split at hParts
  · split at hParts
    · exact hName (by simpa [push] using hParts.symm)
    · simp [push] at hParts
  · split at hParts
    · exact hName (by simpa [push] using hParts.symm)
    · have hLength := congrArg List.length hParts
      simp only [parent, push, List.length_dropLast, List.length_append, List.length_singleton] at hLength
      omega

/-- Different names lead to different places. -/
theorem step_ne_push (path : FilePath) {name other : String} (hName : name ≠ "..")
    (hOther : other ≠ name) : path.step other ≠ path.push name := by
  rw [step]
  split
  · exact path.climb_ne_push hName
  · intro hEq
    exact hOther (path.push_injective hEq)

end FilePath

namespace FileSystem

/-- What a path leads to. -/
def found (files : FileSystem) (path : FilePath) : Except Fault (Option Node) :=
  (files.locate path).map files.node?

variable {files files' : FileSystem} {directory place path : FilePath} {name other : String}
  {bytes : List UInt8}

/-- A probe takes every fault for absence but one: a name that is too long. -/
theorem probe_eq (files : FileSystem) (path : FilePath) :
    files.probe path =
      match files.found path with
      | .ok node => .ok node
      | .error fault => if fault.cause = .nameTooLong then .error fault else .ok none := by
  rw [probe, found]
  cases files.locate path <;> rfl

theorem isFile_congr (hFound : files'.found path = files.found path) :
    files'.isFile path = files.isFile path := by
  rw [isFile, isFile, probe_eq, probe_eq, hFound]

/-- A read is decided by what stands at the path: a file gives its bytes, anything else a fault.
-/
theorem read_eq (files : FileSystem) (path : FilePath) :
    files.read path =
      match files.found path with
      | .ok (some (.file bytes)) => .ok bytes
      | .ok (some .directory) => .error ⟨.isDirectory, path.toString⟩
      | .ok none => .error ⟨.notFound, path.toString⟩
      | .error fault => .error fault := by
  rw [read, found]
  cases files.locate path with
  | error fault => rfl
  | ok place =>
      rw [ok_bind, Except.map]
      cases files.node? place with
      | none => rfl
      | some node => cases node <;> rfl

theorem read_congr (hFound : files'.found path = files.found path) :
    files'.read path = files.read path := by
  rw [read_eq, read_eq, hFound]

/-! ### Names in a directory -/

/-- Where a name in a directory leads to does not hang on what is there. -/
theorem Grows.locate_push (hGrows : files.Grows files')
    (hDirectory : files.locate directory = .ok place)
    (hNode : files.node? place = some .directory) (name : String) :
    files'.locate (directory.push name) = files.locate (directory.push name) := by
  have hLater := locate_push_eq (hGrows.locate hDirectory) (hGrows.directories place hNode) name
  rw [hGrows.limits] at hLater
  rw [hLater, locate_push_eq hDirectory hNode]

/-- A name without room is never found to be a file. It is a fault, and the listing that meets it
ends there. -/
theorem isFile_of_noRoom (hDirectory : files.locate directory = .ok place)
    (hNode : files.node? place = some .directory) (hName : LeadsDown name)
    (hRoom : ¬files.HasRoom (directory.push name)) :
    files.isFile (directory.push name) =
      .error ⟨.nameTooLong, (directory.push name).toString⟩ := by
  rw [isFile, probe, locate_push_of_noRoom hDirectory hNode hName hRoom]
  rfl

/-! ### Lists -/

theorem textLe_trans (a b c : String) (hFirst : textLe a b = true) (hSecond : textLe b c = true) :
    textLe a c = true := by
  simp only [textLe, Bool.not_eq_true', decide_eq_false_iff_not] at *
  exact String.le_trans hFirst hSecond

theorem textLe_total (a b : String) : (textLe a b || textLe b a) = true := by
  simp only [textLe, Bool.or_eq_true, Bool.not_eq_true', decide_eq_false_iff_not]
  exact String.le_total a b

theorem textLe_antisymm {a b : String} (hFirst : textLe a b = true) (hSecond : textLe b a = true) :
    a = b := by
  simp only [textLe, Bool.not_eq_true', decide_eq_false_iff_not] at *
  exact String.le_antisymm hFirst hSecond

/-- One more name comes in between the others. -/
theorem exists_mergeSort_concat (names : List String) (name : String) :
    ∃ before after, (names ++ [name]).mergeSort textLe = before ++ name :: after ∧
      names.mergeSort textLe = before ++ after := by
  have hSorted := List.pairwise_mergeSort textLe_trans textLe_total
  have hPerm := List.mergeSort_perm (names ++ [name]) textLe
  have hMem : name ∈ (names ++ [name]).mergeSort textLe := by simp
  obtain ⟨before, after, hSplit⟩ := List.append_of_mem hMem
  refine ⟨before, after, hSplit, ?_⟩
  have hOthers : (before ++ after).Perm names := by
    rw [hSplit] at hPerm
    have hMoved : (name :: (before ++ after)).Perm (name :: names) :=
      List.perm_middle.symm.trans (hPerm.trans (List.perm_append_singleton name names))
    exact (List.perm_cons name).1 hMoved
  have hOrdered : (before ++ after).Pairwise fun a b => textLe a b = true := by
    have hAll := hSorted (names ++ [name])
    rw [hSplit] at hAll
    exact hAll.sublist ((List.sublist_cons_self name after).append_left before)
  exact List.Perm.eq_of_pairwise (fun a b _ _ => textLe_antisymm) (hSorted names) hOrdered
    ((List.mergeSort_perm names textLe).trans hOthers.symm)

/-- Of a path it can be said whether it leads to a file, unless it is too long. -/
theorem isFile_error {fault : Fault} (hFile : files.isFile path = .error fault) :
    fault.cause = .nameTooLong := by
  have hProbe : files.probe path = .error fault := map_eq_error_iff.1 hFile
  rw [probe_eq] at hProbe
  split at hProbe
  · cases hProbe
  · split at hProbe
    · next hLong =>
        cases hProbe
        exact hLong
    · cases hProbe

/-- A list of files fails only for a path that is too long. -/
theorem cause_of_onlyFiles {names : List String} {fault : Fault}
    (hFiles : files.onlyFiles directory names = .error fault) : fault.cause = .nameTooLong := by
  induction names with
  | nil => cases hFiles
  | cons first names ih =>
      rw [onlyFiles] at hFiles
      split at hFiles
      · next hFirst =>
          cases hFiles
          exact isFile_error hFirst
      · exact ih (map_eq_error_iff.1 hFiles)

/-- Of every name it is known whether it is that of a file, and those of files are kept. -/
theorem isFile_of_onlyFiles {names kept : List String}
    (hFiles : files.onlyFiles directory names = .ok kept) (hMem : name ∈ names) :
    ∃ isFile, files.isFile (directory.push name) = .ok isFile ∧ (isFile = true → name ∈ kept) := by
  induction names generalizing kept with
  | nil => cases hMem
  | cons first names ih =>
      rw [onlyFiles] at hFiles
      split at hFiles
      · cases hFiles
      · next isFile hFirst =>
          obtain ⟨others, hMore, rfl⟩ := exists_of_map_eq_ok hFiles
          rcases List.mem_cons.1 hMem with rfl | hLater
          · refine ⟨isFile, hFirst, ?_⟩
            rintro rfl
            exact List.mem_cons_self
          · obtain ⟨isFile', hFile, hKept⟩ := ih hMore hLater
            refine ⟨isFile', hFile, fun hTrue => ?_⟩
            cases isFile with
            | false => exact hKept hTrue
            | true => exact List.mem_cons_of_mem _ (hKept hTrue)

/-- The files of a directory that is there are those among its names. -/
theorem list_eq_onlyFiles (hDirectory : files.locate directory = .ok place)
    (hNode : files.node? place = some .directory) :
    files.list directory = files.onlyFiles directory (files.namesIn place) := by
  rw [FileSystem.list, names_eq_ok hDirectory hNode]

/-- One name that is too long fails a whole list. -/
theorem list_of_noRoom (hDirectory : files.locate directory = .ok place)
    (hNode : files.node? place = some .directory) (hMem : name ∈ files.namesIn place)
    (hName : LeadsDown name) (hRoom : ¬files.HasRoom (directory.push name)) :
    ∃ fault, files.list directory = .error fault ∧ fault.cause = .nameTooLong := by
  rw [list_eq_onlyFiles hDirectory hNode]
  cases hFiles : files.onlyFiles directory (files.namesIn place) with
  | error fault => exact ⟨fault, rfl, cause_of_onlyFiles hFiles⟩
  | ok kept =>
      obtain ⟨isFile, hFile, -⟩ := isFile_of_onlyFiles hFiles hMem
      rw [isFile_of_noRoom hDirectory hNode hName hRoom] at hFile
      cases hFile

/-- Those of some names in a directory that are files and are of some kind. -/
def filesOfKind (files : FileSystem) (directory : FilePath) (kind : String → Bool)
    (names : List String) : Except Fault (List String) :=
  (files.onlyFiles directory names).map (List.filter kind)

variable {kind : String → Bool}

/-- The files of one kind are collected from the front, and the first fault of a probe ends the
listing. -/
theorem filesOfKind_cons (files : FileSystem) (directory : FilePath) (kind : String → Bool)
    (name : String) (names : List String) :
    files.filesOfKind directory kind (name :: names) =
      match files.isFile (directory.push name) with
      | .error fault => .error fault
      | .ok isFile => (files.filesOfKind directory kind names).map fun kept =>
          if isFile && kind name then name :: kept else kept := by
  rw [filesOfKind, filesOfKind, onlyFiles]
  cases files.isFile (directory.push name) with
  | error fault => rfl
  | ok isFile =>
      cases files.onlyFiles directory names with
      | error fault => rfl
      | ok kept =>
          apply congrArg Except.ok
          cases isFile with
          | false => rfl
          | true => exact List.filter_cons

/-- A name of another kind does not count, so long as it is not too long. -/
theorem filesOfKind_of_other (hKind : kind name = false)
    (hFile : ∃ isFile, files.isFile (directory.push name) = .ok isFile) (names : List String) :
    files.filesOfKind directory kind (name :: names) = files.filesOfKind directory kind names := by
  obtain ⟨isFile, hFile⟩ := hFile
  rw [filesOfKind_cons, hFile, hKind]
  simp only [Bool.and_false, Bool.false_eq_true, if_false]
  cases files.filesOfKind directory kind names <;> rfl

/-- A name of another kind does not change the listing, provided that its probe goes well. -/
theorem filesOfKind_insert (hKind : kind name = false)
    (hFile : ∃ isFile, files.isFile (directory.push name) = .ok isFile) (before after : List String) :
    files.filesOfKind directory kind (before ++ name :: after) =
      files.filesOfKind directory kind (before ++ after) := by
  induction before with
  | nil => exact filesOfKind_of_other hKind hFile after
  | cons first before ih =>
      rw [List.cons_append, List.cons_append, filesOfKind_cons, filesOfKind_cons, ih]

/-- Only the names of the kind asked for matter, so a change to another file leaves the listing as
it is. -/
theorem filesOfKind_congr {names : List String} (hFiles : ∀ other ∈ names, other ≠ name →
      files'.isFile (directory.push other) = files.isFile (directory.push other))
    (hKind : kind name = false)
    (hFile : ∃ isFile, files.isFile (directory.push name) = .ok isFile)
    (hFile' : ∃ isFile, files'.isFile (directory.push name) = .ok isFile) :
    files'.filesOfKind directory kind names = files.filesOfKind directory kind names := by
  induction names with
  | nil => rfl
  | cons first names ih =>
      obtain ⟨hFirst, hMore⟩ := List.forall_mem_cons.1 hFiles
      by_cases hSame : first = name
      · subst hSame
        rw [filesOfKind_of_other hKind hFile, filesOfKind_of_other hKind hFile', ih hMore]
      · rw [filesOfKind_cons, filesOfKind_cons, hFirst hSame, ih hMore]

/-! ### Names of files -/

/-- A name that a file can have. -/
structure IsName (name : String) : Prop extends LeadsDown name, FilePath.IsPart name

theorem mem_keys_of_file (hFile : files.node? place = some (.file bytes)) :
    place ∈ files.nodes.keys := by
  rw [node?] at hFile
  split at hFile
  · cases hFile
  · by_contra hNone
    rw [Table.get?_eq_none hNone] at hFile
    cases hFile

theorem mem_namesIn_of_file (hFile : files.node? (place.push name) = some (.file bytes)) :
    name ∈ files.namesIn place := by
  have hEntry : place.push name ∈ files.nodes.keys.filter fun path => path.parent = place :=
    List.mem_filter.2 ⟨mem_keys_of_file hFile, by simp⟩
  rw [namesIn, List.mem_mergeSort, List.mem_map]
  exact ⟨place.push name, hEntry, FilePath.push_name place name⟩

/-- No name is listed twice. -/
theorem nodup_namesIn (hNames : ∀ name ∈ files.namesIn place, IsName name) :
    (files.namesIn place).Nodup := by
  have hPushed : ∀ path ∈ files.nodes.keys.filter (fun path => path.parent = place),
      path = place.push path.name := by
    intro path hMem
    have hParent : path.parent = place := by simpa using (List.mem_filter.1 hMem).2
    have hListed : path.name ∈ files.namesIn place := by
      rw [namesIn, List.mem_mergeSort]
      exact List.mem_map_of_mem hMem
    have hParts : path.parts ≠ [] := by
      intro hNone
      apply (hNames _ hListed).notEmpty
      rw [FilePath.name, hNone]
      rfl
    obtain ⟨root, parts⟩ := path
    rw [← hParent, FilePath.push, FilePath.parent, FilePath.name]
    simp only [FilePath.mk.injEq, true_and]
    rw [List.getLast?_eq_some_getLast hParts, Option.getD_some]
    exact (List.dropLast_append_getLast hParts).symm
  rw [namesIn, (List.mergeSort_perm _ textLe).nodup_iff]
  refine (files.nodes.distinct.filter _).map_on fun first hFirst second hSecond hName => ?_
  rw [hPushed first hFirst, hPushed second hSecond, hName]

/-! ### One more file -/

/-- Another content of a file leaves the names as they are. -/
theorem namesIn_withFile_of_mem (hKey : place.push name ∈ files.nodes.keys) (bytes : List UInt8) :
    (files.withFile (place.push name) bytes).namesIn place = files.namesIn place := by
  have hKeys := Table.keys_put_of_mem hKey (Node.file bytes)
  rw [namesIn, namesIn, withFile, hKeys]

/-- The names that are listed when a file is written: the same, or one more between them. -/
theorem namesIn_withFile (files : FileSystem) (place : FilePath) (name : String) (bytes : List UInt8) :
    (files.withFile (place.push name) bytes).namesIn place = files.namesIn place ∨
      ∃ before after, (files.withFile (place.push name) bytes).namesIn place = before ++ name :: after ∧
        files.namesIn place = before ++ after := by
  by_cases hKey : place.push name ∈ files.nodes.keys
  · exact Or.inl (namesIn_withFile_of_mem hKey bytes)
  · right
    rw [namesIn, namesIn, keys_withFile hKey, List.filter_append, List.map_append]
    simp only [FilePath.push_parent, decide_true, List.filter_cons_of_pos, List.filter_nil,
      List.map_singleton, FilePath.push_name]
    exact exists_mergeSort_concat _ name

section

variable (hDirectory : files.locate directory = .ok place)
  (hNode : files.node? place = some .directory) (hName : LeadsDown name)
  (hFree : files.node? (place.push name) ≠ some .directory) (bytes : List UInt8)

include hDirectory hNode hName hFree

/-- Every other name of the directory leads to what it led to before. -/
theorem found_withFile (hOther : other ≠ name) :
    (files.withFile (place.push name) bytes).found (directory.push other) =
      files.found (directory.push other) := by
  have hTop := place.isTop_push hName.notUp
  have hGrows := grows_withFile hTop hFree bytes
  rw [found, found, hGrows.locate_push hDirectory hNode, locate_push_eq hDirectory hNode]
  split
  · rfl
  · split
    · rfl
    · apply congrArg Except.ok
      rw [node?_withFile hTop, if_neg (place.step_ne_push hName.notUp hOther)]

/-- A file just written is found to be one. -/
theorem isFile_withFile (hRoom : files.HasRoom (directory.push name)) :
    (files.withFile (place.push name) bytes).isFile (directory.push name) = .ok true := by
  have hTop := place.isTop_push hName.notUp
  have hGrows := grows_withFile hTop hFree bytes
  apply isFile_eq_true (hGrows.locate (locate_push hDirectory hNode hName hRoom))
  rw [node?_withFile hTop, if_pos rfl]

/-- The files of a kind are the same when a file of no such kind is written. -/
theorem filesOfKind_withFile (hRoom : files.HasRoom (directory.push name))
    (hKind : kind name = false) :
    (files.withFile (place.push name) bytes).filesOfKind directory kind
        ((files.withFile (place.push name) bytes).namesIn place) =
      files.filesOfKind directory kind (files.namesIn place) := by
  have hIs := isFile_withFile hDirectory hNode hName hFree bytes hRoom
  have hWas : ∃ wasFile, files.isFile (directory.push name) = .ok wasFile := by
    rw [isFile, probe, locate_push hDirectory hNode hName hRoom]
    exact ⟨_, rfl⟩
  have hSame : ∀ names : List String,
      (files.withFile (place.push name) bytes).filesOfKind directory kind names =
        files.filesOfKind directory kind names := by
    intro names
    apply filesOfKind_congr ?_ hKind hWas ⟨true, hIs⟩
    intro other _ hOther
    exact isFile_congr (found_withFile hDirectory hNode hName hFree bytes hOther)
  rcases files.namesIn_withFile place name bytes with hNames | ⟨before, after, hNames, hBefore⟩
  · rw [hNames, hSame]
  · rw [hNames, filesOfKind_insert hKind ⟨true, hIs⟩, hSame, hBefore]

end

/-! ### Directories with room -/

def holdsFile (files : FileSystem) (place : FilePath) : Bool :=
  match files.node? place with
  | some (.file _) => true
  | _ => false

/-- Whether a name is a file is decided by the node below its directory, when the name leads down
and has room. -/
theorem isFile_push (hDirectory : files.locate directory = .ok place)
    (hNode : files.node? place = some .directory) (hName : LeadsDown name)
    (hRoom : files.HasRoom (directory.push name)) :
    files.isFile (directory.push name) = .ok (files.holdsFile (place.push name)) := by
  rw [isFile, probe, locate_push hDirectory hNode hName hRoom, holdsFile]
  rfl

/-- The files of a directory with room for all its names. -/
theorem list_eq_ok (hDirectory : files.locate directory = .ok place)
    (hNode : files.node? place = some .directory) (hNames : ∀ name ∈ files.namesIn place, LeadsDown name)
    (hRoom : ∀ name ∈ files.namesIn place, files.HasRoom (directory.push name)) :
    files.list directory =
      .ok ((files.namesIn place).filter fun name => files.holdsFile (place.push name)) := by
  have hFiles : ∀ name ∈ files.namesIn place,
      files.isFile (directory.push name) = .ok (files.holdsFile (place.push name)) :=
    fun name hMem => isFile_push hDirectory hNode (hNames name hMem) (hRoom name hMem)
  rw [list_eq_onlyFiles hDirectory hNode]
  generalize files.namesIn place = names at hFiles
  induction names with
  | nil => rfl
  | cons name names ih =>
      obtain ⟨hFirst, hMore⟩ := List.forall_mem_cons.1 hFiles
      rw [onlyFiles, hFirst, ih hMore, List.filter_cons]
      rfl

end FileSystem

end QuestScript

import QuestScript.Files.TextFile
import QuestScript.Proofs.Except
import QuestScript.Proofs.Table
import QuestScript.Proofs.Text.Utf8
/-!
Files in a directory. A file that is written is found under its name and read back as it was written;
every directory is still found where it was, and no other file changes.

A file system has room for a path if neither its name nor the whole path is too long. That is all
that is asked of the names of files here, so they may be of any length that there is room for.
-/

namespace QuestScript

namespace FilePath

@[simp] theorem push_name (path : FilePath) (name : String) : (path.push name).name = name := by
  simp [push, FilePath.name]

@[simp] theorem push_parent (path : FilePath) (name : String) : (path.push name).parent = path := by
  simp [push, parent]

theorem push_injective (path : FilePath) : Function.Injective path.push := by
  intro left right hEq
  rw [← push_name path left, hEq, push_name]

theorem step_of_ne_up (path : FilePath) {name : String} (hName : name ≠ "..") :
    path.step name = path.push name := if_neg hName

theorem isTop_push (path : FilePath) {name : String} (hName : name ≠ "..") :
    FileSystem.isTop (path.push name) = false := by
  simp [FileSystem.isTop, push, hName]

/-- The text of a path ends with its last name. -/
theorem exists_toString_push (path : FilePath) (name : String) :
    ∃ front, (path.push name).toString = front ++ name := by
  have hJoined (parts : List String) :
      ∃ front, "/".intercalate (parts ++ [name]) = front ++ name := by
    induction parts with
    | nil => exact ⟨"", by simp⟩
    | cons part parts ih =>
        obtain ⟨front, hFront⟩ := ih
        refine ⟨part ++ "/" ++ front, ?_⟩
        rw [List.cons_append, String.intercalate_cons_of_ne_nil (by simp), hFront, String.append_assoc,
          String.append_assoc, String.append_assoc]
  obtain ⟨front, hFront⟩ := hJoined path.parts
  refine ⟨path.root ++ front, ?_⟩
  simp [toString, push, hFront, String.append_assoc]

end FilePath

namespace FileSystem

/-- Whether neither the name nor the path is longer than may be. -/
structure HasRoom (files : FileSystem) (path : FilePath) : Prop where
  name : path.name.utf8ByteSize ≤ files.limits.nameBytes
  path : path.toString.utf8ByteSize ≤ files.limits.pathBytes

/-- A name of a file that leads down: no null character is in it, and it is not the way up. -/
structure LeadsDown (name : String) : Prop where
  noNull : Char.ofNat 0 ∉ name.toList
  notUp : name ≠ ".."

variable {files files' : FileSystem} {place reached directory path : FilePath} {name : String}

/-! ### Paths -/

/-- The last name of a path is followed from where the names before it lead. -/
theorem follow_append (files : FileSystem) (place : FilePath) (names : List String) (name : String) :
    files.follow place (names ++ [name]) =
      match files.follow place names with
      | .ok reached => files.follow reached [name]
      | .error cause => .error cause := by
  induction names generalizing place with
  | nil => rfl
  | cons next names ih =>
      rw [List.cons_append, follow, follow]
      split
      · split
        · rfl
        · exact ih _
      · rfl
      · rfl

/-- Where a name in a directory leads to, if there is room for it. -/
theorem locate_push_eq (hDirectory : files.locate directory = .ok place)
    (hNode : files.node? place = some .directory) (name : String) :
    files.locate (directory.push name) =
      if (directory.push name).holdsNull then .error ⟨.noPath, (directory.push name).toString⟩
      else if files.limits.pathBytes < (directory.push name).toString.utf8ByteSize ∨
          files.limits.nameBytes < name.utf8ByteSize then
        .error ⟨.nameTooLong, (directory.push name).toString⟩
      else .ok (place.step name) := by
  unfold locate at hDirectory
  split at hDirectory
  · cases hDirectory
  · split at hDirectory
    · cases hDirectory
    · split at hDirectory
      · next hFollow =>
          cases hDirectory
          have hStep : files.follow { directory.push name with parts := [] }
              (directory.push name).parts =
              if files.limits.nameBytes < name.utf8ByteSize then .error .nameTooLong
              else .ok (place.step name) := by
            change files.follow { directory with parts := [] } (directory.parts ++ [name]) = _
            rw [follow_append, hFollow]
            dsimp only
            rw [follow, hNode]
            rfl
          rw [locate, hStep]
          by_cases hPath : files.limits.pathBytes < (directory.push name).toString.utf8ByteSize
          · rw [if_pos hPath, if_pos (Or.inl hPath)]
          · rw [if_neg hPath]
            by_cases hName : files.limits.nameBytes < name.utf8ByteSize
            · rw [if_pos hName, if_pos (Or.inr hName)]
            · rw [if_neg hName, if_neg (not_or.2 ⟨hPath, hName⟩)]
      · cases hDirectory

theorem holdsNull_push (hDirectory : files.locate directory = .ok place)
    (hName : Char.ofNat 0 ∉ name.toList) : (directory.push name).holdsNull = false := by
  have hPlain : directory.holdsNull = false := by
    by_contra hNull
    rw [locate, if_pos (by simpa using hNull)] at hDirectory
    cases hDirectory
  simpa [FilePath.holdsNull, FilePath.push, hName] using hPlain

/-- A path that is followed leads on to a name in its directory. -/
theorem locate_push (hDirectory : files.locate directory = .ok place)
    (hNode : files.node? place = some .directory) (hName : LeadsDown name)
    (hRoom : files.HasRoom (directory.push name)) :
    files.locate (directory.push name) = .ok (place.push name) := by
  have hShort : name.utf8ByteSize ≤ files.limits.nameBytes :=
    FilePath.push_name directory name ▸ hRoom.name
  rw [locate_push_eq hDirectory hNode, holdsNull_push hDirectory hName.noNull,
    if_neg Bool.false_ne_true, if_neg (not_or.2 ⟨Nat.not_lt.2 hRoom.path, Nat.not_lt.2 hShort⟩),
    FilePath.step_of_ne_up place hName.notUp]

/-- A name for which there is no room leads nowhere. -/
theorem locate_push_of_noRoom (hDirectory : files.locate directory = .ok place)
    (hNode : files.node? place = some .directory) (hName : LeadsDown name)
    (hRoom : ¬files.HasRoom (directory.push name)) :
    files.locate (directory.push name) =
      .error ⟨.nameTooLong, (directory.push name).toString⟩ := by
  have hLong : files.limits.pathBytes < (directory.push name).toString.utf8ByteSize ∨
      files.limits.nameBytes < name.utf8ByteSize := by
    by_contra hShort
    obtain ⟨hPath, hShort⟩ := not_or.1 hShort
    apply hRoom
    constructor
    · rw [FilePath.push_name]
      exact Nat.not_lt.1 hShort
    · exact Nat.not_lt.1 hPath
  rw [locate_push_eq hDirectory hNode, holdsNull_push hDirectory hName.noNull,
    if_neg Bool.false_ne_true, if_pos hLong]

/-! ### Growing -/

/-- What stays as files are added: the limits, and every directory. -/
structure Grows (files files' : FileSystem) : Prop where
  limits : files'.limits = files.limits
  directories : ∀ place, files.node? place = some .directory →
    files'.node? place = some .directory

theorem Grows.hasRoom (hGrows : files.Grows files') (hRoom : files.HasRoom path) :
    files'.HasRoom path :=
  ⟨hGrows.limits ▸ hRoom.name, hGrows.limits ▸ hRoom.path⟩

/-- Whatever could be followed before a file system grew leads to the same place after it. -/
theorem Grows.follow (hGrows : files.Grows files') {names : List String}
    (hFollow : files.follow place names = .ok reached) :
    files'.follow place names = .ok reached := by
  induction names generalizing place with
  | nil => exact hFollow
  | cons name names ih =>
      rw [FileSystem.follow] at hFollow ⊢
      split at hFollow
      · next hNode =>
          rw [hGrows.directories place hNode, hGrows.limits]
          dsimp only
          split at hFollow
          · cases hFollow
          · next hShort =>
              rw [if_neg hShort]
              exact ih hFollow
      · cases hFollow
      · cases hFollow

/-- A path that leads somewhere leads to the same place as files are added. -/
theorem Grows.locate (hGrows : files.Grows files') (hLocate : files.locate path = .ok place) :
    files'.locate path = .ok place := by
  unfold FileSystem.locate at hLocate ⊢
  rw [hGrows.limits]
  split at hLocate
  · cases hLocate
  · split at hLocate
    · cases hLocate
    · next hNull hShort =>
        rw [if_neg hNull, if_neg hShort]
        split at hLocate
        · next hFollow =>
            rw [hGrows.follow hFollow]
            exact hLocate
        · cases hLocate

/-! ### One more file -/

def withFile (files : FileSystem) (place : FilePath) (bytes : List UInt8) : FileSystem :=
  { files with nodes := files.nodes.put place (.file bytes) }

variable {bytes : List UInt8}

/-- A write that reaches a place and finds no directory there puts the bytes in that place. -/
theorem write_eq_withFile (hLocate : files.locate path = .ok place)
    (hNode : files.node? place ≠ some .directory) :
    files.write path bytes = .ok (files.withFile place bytes) := by
  rw [write, hLocate, ok_bind]
  split
  · next hDirectory => exact absurd hDirectory hNode
  · rfl

/-- A write changes one place. Every other node is as it was. -/
theorem node?_withFile (hTop : isTop place = false) (other : FilePath) :
    (files.withFile place bytes).node? other =
      if other = place then some (.file bytes) else files.node? other := by
  rw [node?, node?, withFile, Table.get?_put]
  by_cases hOther : other = place
  · rw [if_pos hOther, if_pos hOther, hOther, hTop]
    rfl
  · rw [if_neg hOther, if_neg hOther]

/-- A file system grows by a write that finds no directory: directories stay directories, and
places stay where they were. -/
theorem grows_withFile (hTop : isTop place = false)
    (hNode : files.node? place ≠ some .directory) (bytes : List UInt8) :
    files.Grows (files.withFile place bytes) := by
  refine ⟨rfl, fun other hOther => ?_⟩
  rw [node?_withFile hTop, if_neg]
  · exact hOther
  · rintro rfl
    exact hNode hOther

/-- A new file comes last in the order in which the file system lists its places. -/
theorem keys_withFile (hFresh : place ∉ files.nodes.keys) :
    (files.withFile place bytes).nodes.keys = files.nodes.keys ++ [place] :=
  Table.keys_put hFresh _

theorem node?_eq_none (hTop : isTop place = false) (hFresh : place ∉ files.nodes.keys) :
    files.node? place = none := by
  rw [node?, hTop, Table.get?_eq_none hFresh]
  rfl

/-! ### Directories that are there -/

theorem isDirectory_eq_true (hLocate : files.locate path = .ok place)
    (hNode : files.node? place = some .directory) : files.isDirectory path = .ok true := by
  rw [isDirectory, probe, hLocate]
  dsimp only
  rw [hNode]
  rfl

theorem isFile_eq_true (hLocate : files.locate path = .ok place)
    (hNode : files.node? place = some (.file bytes)) : files.isFile path = .ok true := by
  rw [isFile, probe, hLocate]
  dsimp only
  rw [hNode]
  rfl

theorem read_eq_ok (hLocate : files.locate path = .ok place)
    (hNode : files.node? place = some (.file bytes)) : files.read path = .ok bytes := by
  rw [read, hLocate, ok_bind, hNode]

theorem names_eq_ok (hLocate : files.locate path = .ok place)
    (hNode : files.node? place = some .directory) :
    files.names path = .ok (files.namesIn place) := by
  rw [names, hLocate, ok_bind, hNode]

/-- What is known of a path whose names can be listed. -/
theorem exists_of_names_eq_ok {names : List String} (hNames : files.names path = .ok names) :
    ∃ place, files.locate path = .ok place ∧ files.node? place = some .directory ∧
      files.namesIn place = names := by
  unfold FileSystem.names at hNames
  cases hLocate : files.locate path with
  | error fault =>
      rw [hLocate] at hNames
      cases hNames
  | ok place =>
      rw [hLocate, ok_bind] at hNames
      split at hNames
      · next hNode =>
          cases hNames
          exact ⟨place, rfl, hNode, rfl⟩
      · cases hNames
      · cases hNames

/-- A directory that is there is not made again. -/
theorem ensureDirectories_eq_self (hLocate : files.locate path = .ok place)
    (hNode : files.node? place = some .directory) :
    files.ensureDirectories path = ⟨files, none⟩ := by
  have hMake : files.makeDirectory path = .error ⟨.alreadyExists, path.toString⟩ := by
    rw [makeDirectory, hLocate, ok_bind, hNode]
  have hEnsure : files.ensureDirectory path = ⟨files, none⟩ := by
    rw [ensureDirectory, hMake, isDirectory_eq_true hLocate hNode]
  rw [ensureDirectories]
  simp only [hEnsure]
  rw [dif_neg (by simp)]

/-- A listing of files only is the whole listing of names. -/
theorem onlyFiles_eq_self {names : List String}
    (hFiles : ∀ name ∈ names, files.isFile (directory.push name) = .ok true) :
    files.onlyFiles directory names = .ok names := by
  induction names with
  | nil => rfl
  | cons name names ih =>
      obtain ⟨hFirst, hRest⟩ := List.forall_mem_cons.1 hFiles
      rw [onlyFiles, hFirst, ih hRest]
      rfl

end FileSystem

namespace TextFile

open QuestScript.Text

/-- A text is read from bytes that are UTF-8. -/
theorem read_eq (files : FileSystem) (path : FilePath) :
    read files path =
      match files.read path with
      | .error fault => .error (.file fault)
      | .ok bytes =>
        match Utf8.decode bytes with
        | .error fault => .error (.bytes fault)
        | .ok text => .ok (String.ofList (unifyNewlines text)) := by
  rw [read, readExact]
  cases files.read path with
  | error fault => rfl
  | ok bytes =>
      dsimp only
      rw [ofBytes]
      cases Utf8.decode bytes with
      | error fault => rfl
      | ok text =>
          dsimp only [Except.map]
          rw [String.toList_ofList]

end TextFile

end QuestScript

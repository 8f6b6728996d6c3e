import QuestScript.Quest.TemplateLibrary
import QuestScript.Proofs.Files.Directory
import QuestScript.Proofs.Files.FilePath
import QuestScript.Proofs.Quest.Pasting
/-!
Libraries of templates from directories. Each template file counts for itself: it gives a template under
its stem if its bytes are UTF-8 and its text is a template, and else a failure under its stem, whatever
is in the other files. A directory fails as a whole if there is no room for the path of some name
in it, that of a template file or not, since every name is looked at. And it fails as a whole if a
template file has an integer with too many digits, which is no failure of the file alone.
-/

namespace QuestScript

open QuestScript.Text

/-- The template of the bytes of a file, if they are one. -/
def Template.ofBytes? (bytes : List UInt8) : Option Template :=
  match Utf8.decode bytes with
  | .error _ => none
  | .ok text => (Template.parse (String.ofList (unifyNewlines text))).toOption

/-- The fault of an integer that stops the reading of the bytes of a file. -/
def Template.oversizeOf? (bytes : List UInt8) : Option Integer.Oversize :=
  match Utf8.decode bytes with
  | .error _ => none
  | .ok text =>
    match Template.parse (String.ofList (unifyNewlines text)) with
    | .error fault => fault.cause.oversize?
    | .ok _ => none

namespace TemplateLibrary

open FileSystem

/-! ### What a library holds -/

/-- What is held under a name: a template, a failure or nothing. -/
structure Holds (library : TemplateLibrary) (name : String)
    (outcome? : Option (Except Failure Template)) : Prop where
  template : library.templates.get? name = outcome?.bind Except.toOption
  failure : library.failures.get? name = outcome?.bind fun outcome =>
    match outcome with
    | .ok _ => none
    | .error failure => some failure

variable {library : TemplateLibrary} {name : String} {outcome : Except Failure Template}
  {outcome? : Option (Except Failure Template)}

theorem holds_empty (name : String) : empty.Holds name none := ⟨rfl, rfl⟩

/-- A library holds the outcome it was given last for a name. -/
theorem Holds.add_same (hNone : library.Holds name none) (outcome : Except Failure Template) :
    (library.add name outcome).Holds name (some outcome) := by
  cases outcome with
  | ok template =>
      refine ⟨?_, hNone.failure⟩
      rw [add, Table.get?_put, if_pos rfl]
      rfl
  | error failure =>
      refine ⟨hNone.template, ?_⟩
      rw [add, Table.get?_put, if_pos rfl]
      rfl

/-- An outcome for one name says nothing about another. -/
theorem Holds.add_other {other : String} (hHolds : library.Holds name outcome?)
    (hOther : name ≠ other) (outcome : Except Failure Template) :
    (library.add other outcome).Holds name outcome? := by
  cases outcome with
  | ok template =>
      refine ⟨?_, hHolds.failure⟩
      rw [add, Table.get?_put, if_neg hOther]
      exact hHolds.template
  | error failure =>
      refine ⟨hHolds.template, ?_⟩
      rw [add, Table.get?_put, if_neg hOther]
      exact hHolds.failure

def addAll (library : TemplateLibrary) (outcomes : List (String × Except Failure Template)) :
    TemplateLibrary :=
  outcomes.foldl (fun library entry => library.add entry.1 entry.2) library

/-- Outcomes under different names do not touch each other. -/
theorem holds_addAll {outcomes : List (String × Except Failure Template)}
    (hDistinct : (outcomes.map Prod.fst).Nodup) (hHolds : library.Holds name outcome?)
    (hFresh : name ∈ outcomes.map Prod.fst → outcome? = none) :
    (library.addAll outcomes).Holds name ((outcomes.lookup name).or outcome?) := by
  induction outcomes generalizing library outcome? with
  | nil => exact hHolds
  | cons entry outcomes ih =>
      rw [List.map_cons, List.nodup_cons] at hDistinct
      change ((library.add entry.1 entry.2).addAll outcomes).Holds name _
      rw [Table.lookup_cons_eq_ite]
      by_cases hName : name = entry.1
      · subst hName
        obtain rfl := hFresh List.mem_cons_self
        have hLater := ih hDistinct.2 (hHolds.add_same entry.2) fun hMem => absurd hMem hDistinct.1
        rw [if_pos rfl]
        rwa [Table.lookup_eq_none hDistinct.1] at hLater
      · rw [if_neg hName]
        exact ih hDistinct.2 (hHolds.add_other hName entry.2)
          fun hMem => hFresh (List.mem_cons_of_mem _ hMem)

/-! ### What files give -/

def stemOf (name : String) : String := (⟨"", [name]⟩ : FilePath).stem

/-- What the bytes of a file give, as far as no integer of them stops it. -/
def outcomeOf (path : FilePath) (bytes : List UInt8) : Except Failure Template :=
  match Utf8.decode bytes with
  | .error fault => .error (.unreadable ⟨path.toString, .bytes fault⟩)
  | .ok text => (Template.parse (String.ofList (unifyNewlines text))).mapError .broken

/-- A template is loaded from a file just as it is read from its bytes. -/
theorem toOption_outcomeOf (path : FilePath) (bytes : List UInt8) :
    (outcomeOf path bytes).toOption = Template.ofBytes? bytes := by
  rw [outcomeOf, Template.ofBytes?]
  cases Utf8.decode bytes with
  | error fault => rfl
  | ok text =>
      dsimp only
      cases Template.parse (String.ofList (unifyNewlines text)) <;> rfl

/-- A file gives what its bytes give, unless an integer stops it. -/
theorem readTemplate_decoded (path : FilePath) (bytes : List UInt8) :
    (readTemplate <|
      match Utf8.decode bytes with
      | .error fault => .error ⟨path.toString, .bytes fault⟩
      | .ok text => .ok (String.ofList (unifyNewlines text))) =
      Integer.guarded (Template.oversizeOf? bytes) (outcomeOf path bytes) := by
  rw [outcomeOf, Template.oversizeOf?]
  cases Utf8.decode bytes with
  | error fault => rfl
  | ok text =>
      simp only [readTemplate]
      cases Template.parse (String.ofList (unifyNewlines text)) with
      | ok template => rfl
      | error fault =>
          dsimp only
          cases fault.cause.oversize? <;> rfl

/-- A statement in a line stops a file if one of its integers without quotes has too many digits. -/
theorem oversizeOf?_line {schema : Schema} {statement : Template.Statement} {line : String}
    (written : statement.Written schema line) (hLong : ¬statement.LiteralsFit) :
    Template.oversizeOf? (Utf8.encode line.toList) ≠ none := by
  have hPlain : '\r' ∉ line.toList := fun hMem =>
    absurd (written.spaced.isLineBreak_eq_false written.proper.unbroken _ hMem) (by decide)
  have hNot : ¬∀ other ∈ [statement], Template.Statement.LiteralsFit other :=
    fun hAll => hLong (List.forall_mem_singleton.1 hAll)
  obtain ⟨fault, number, hParse⟩ := (Template.parse_written (.cons written .nil)).2 hNot
  have hLine : joinLines [line] = line := String.intercalate_singleton
  rw [hLine] at hParse
  rw [Template.oversizeOf?, Utf8.decode_encode]
  dsimp only
  rw [unifyNewlines_eq_self hPlain, String.ofList_toList, hParse]
  nofun

variable {files : FileSystem} {directory place : FilePath} {file stem : String} {bytes : List UInt8}

/-- A template file at a place, and its bytes. -/
structure IsTemplateAt (files : FileSystem) (place : FilePath) (file : String) (bytes : List UInt8) :
    Prop where
  kind : isTemplateFile file = true
  node : files.node? (place.push file) = some (.file bytes)

def bytesAt (files : FileSystem) (place : FilePath) : List UInt8 :=
  match files.node? place with
  | some (.file bytes) => bytes
  | _ => []

theorem node?_of_holdsFile (hFile : files.holdsFile place = true) :
    files.node? place = some (.file (bytesAt files place)) := by
  rw [holdsFile] at hFile
  split at hFile
  · next hNode => rw [bytesAt, hNode]
  · cases hFile

def templateNames (files : FileSystem) (place : FilePath) : List String :=
  ((files.namesIn place).filter fun file => files.holdsFile (place.push file)).filter isTemplateFile

/-- The names of templates are those of files with the suffix of templates. -/
theorem mem_templateNames :
    file ∈ templateNames files place ↔ ∃ bytes, IsTemplateAt files place file bytes := by
  rw [templateNames, List.mem_filter, List.mem_filter]
  constructor
  · rintro ⟨⟨-, hFile⟩, hKind⟩
    exact ⟨_, hKind, node?_of_holdsFile hFile⟩
  · rintro ⟨bytes, hKind, hNode⟩
    refine ⟨⟨mem_namesIn_of_file hNode, ?_⟩, hKind⟩
    rw [holdsFile, hNode]

def outcomes (files : FileSystem) (directory place : FilePath) :
    List (String × Except Failure Template) :=
  (templateNames files place).map fun file =>
    (stemOf file, outcomeOf (directory.push file) (bytesAt files (place.push file)))

/-- The fault of the first template file of a directory with an integer that stops it. -/
def oversizeIn? (files : FileSystem) (place : FilePath) : Option Integer.Oversize :=
  (templateNames files place).findSome? fun file =>
    Template.oversizeOf? (bytesAt files (place.push file))

/-- No file stops the loading when no template among them has an integer that is too long. -/
theorem oversizeIn?_eq_none_iff :
    oversizeIn? files place = none ↔
      ∀ file bytes, IsTemplateAt files place file bytes → Template.oversizeOf? bytes = none := by
  rw [oversizeIn?, List.findSome?_eq_none_iff]
  constructor
  · intro hNone file bytes hTemplate
    have hFile := hNone file (mem_templateNames.2 ⟨bytes, hTemplate⟩)
    rwa [bytesAt, hTemplate.node] at hFile
  · intro hNone file hMem
    obtain ⟨bytes, hTemplate⟩ := mem_templateNames.1 hMem
    rw [bytesAt, hTemplate.node]
    exact hNone file bytes hTemplate

theorem map_fst_outcomes (files : FileSystem) (directory place : FilePath) :
    (outcomes files directory place).map Prod.fst = (templateNames files place).map stemOf := by
  rw [outcomes, List.map_map]
  rfl

/-- A stem gives what the one file of that stem gives. -/
theorem lookup_outcomes (hStems : ((templateNames files place).map stemOf).Nodup)
    {outcome : Except Failure Template} :
    (outcomes files directory place).lookup stem = some outcome ↔
      ∃ file bytes, IsTemplateAt files place file bytes ∧ stemOf file = stem ∧
        outcomeOf (directory.push file) bytes = outcome := by
  constructor
  · intro hLookup
    obtain ⟨file, hFile, hEntry⟩ := List.mem_map.1 (Table.mem_of_lookup hLookup)
    obtain ⟨bytes, hTemplate⟩ := mem_templateNames.1 hFile
    have hBytes : bytesAt files (place.push file) = bytes := by rw [bytesAt, hTemplate.node]
    cases hEntry
    exact ⟨file, bytes, hTemplate, rfl, by rw [hBytes]⟩
  · rintro ⟨file, bytes, hTemplate, rfl, rfl⟩
    have hBytes : bytesAt files (place.push file) = bytes := by rw [bytesAt, hTemplate.node]
    have hEntry : (stemOf file, outcomeOf (directory.push file) bytes) ∈
        outcomes files directory place :=
      List.mem_map.2 ⟨file, mem_templateNames.2 ⟨bytes, hTemplate⟩, by rw [hBytes]⟩
    rw [← map_fst_outcomes files directory place] at hStems
    exact Table.lookup_of_mem hStems hEntry

/-! ### Libraries of directories -/

section

variable (hNormal : directory.Normal) (hDirectory : files.locate directory = .ok place)
  (hNode : files.node? place = some .directory)

include hNormal hDirectory hNode

/-- A file adds what its bytes give under its stem, unless an integer stops it. -/
theorem addFile_eq (hName : IsName file) (hRoom : files.HasRoom (directory.push file))
    (hFile : files.node? (place.push file) = some (.file bytes)) (library : TemplateLibrary) :
    addFile files directory library file =
      (Integer.guarded (Template.oversizeOf? bytes)
        (library.add (stemOf file) (outcomeOf (directory.push file) bytes))).mapError
          Fault.oversize := by
  have hStem : (directory.push file).stem = stemOf file := by
    rw [FilePath.stem, FilePath.push_name]
    rfl
  have hPath := FilePath.ofString_toString (hNormal.push hName.toIsPart)
  have hLocate := locate_push hDirectory hNode hName.toLeadsDown hRoom
  have hRead := readTemplate_decoded (directory.push file) bytes
  rw [addFile, hStem, TextFile.readDocument, hPath, TextFile.read_eq, read_eq_ok hLocate hFile]
  dsimp only
  cases hDecode : Utf8.decode bytes with
  | error fault =>
      simp only [hDecode] at hRead
      simp only [hRead]
      cases Template.oversizeOf? bytes <;> rfl
  | ok text =>
      simp only [hDecode] at hRead
      simp only [hRead]
      cases Template.oversizeOf? bytes <;> rfl

attribute [local irreducible] addFile in
omit hNormal hDirectory hNode in
theorem addFiles_cons (files : FileSystem) (directory : FilePath) (library : TemplateLibrary)
    (file : String) (names : List String) :
    addFiles files directory library (file :: names) =
      match addFile files directory library file with
      | .error fault => .error fault
      | .ok library => addFiles files directory library names := rfl

/-- The first file with an integer that stops it stops them all. -/
theorem addFiles_eq {names : List String} (hNames : ∀ file ∈ names, IsName file)
    (hRoom : ∀ file ∈ names, files.HasRoom (directory.push file))
    (hFiles : ∀ file ∈ names, files.holdsFile (place.push file) = true) (library : TemplateLibrary) :
    addFiles files directory library names =
      (Integer.guarded
        (names.findSome? fun file => Template.oversizeOf? (bytesAt files (place.push file)))
        (library.addAll (names.map fun file =>
          (stemOf file, outcomeOf (directory.push file) (bytesAt files (place.push file)))))).mapError
        Fault.oversize := by
  induction names generalizing library with
  | nil => rfl
  | cons file names ih =>
      obtain ⟨hName, hNames⟩ := List.forall_mem_cons.1 hNames
      obtain ⟨hFits, hRoom⟩ := List.forall_mem_cons.1 hRoom
      obtain ⟨hFile, hFiles⟩ := List.forall_mem_cons.1 hFiles
      rw [addFiles_cons, List.findSome?_cons,
        addFile_eq hNormal hDirectory hNode hName hFits (node?_of_holdsFile hFile)]
      cases Template.oversizeOf? (bytesAt files (place.push file)) with
      | some fault => rfl
      | none => exact ih hNames hRoom hFiles _

/-- Where there is room for all names, the library is made of what the files give, unless an integer of
one of them stops it. -/
theorem ofDirectory_eq (hNames : ∀ file ∈ files.namesIn place, IsName file)
    (hRoom : ∀ file ∈ files.namesIn place, files.HasRoom (directory.push file)) :
    ofDirectory files directory =
      (Integer.guarded (oversizeIn? files place)
        (empty.addAll (outcomes files directory place))).mapError Fault.oversize := by
  have hList := list_eq_ok hDirectory hNode (fun file hMem => (hNames file hMem).toLeadsDown) hRoom
  have hFileNames : fileNames files directory = .ok (templateNames files place) := by
    rw [fileNames, isDirectory_eq_true hDirectory hNode, hList]
    rfl
  have hListed : ∀ file ∈ templateNames files place,
      file ∈ files.namesIn place ∧ files.holdsFile (place.push file) = true :=
    fun file hMem => List.mem_filter.1 (List.mem_filter.1 hMem).1
  rw [ofDirectory, hFileNames]
  exact addFiles_eq hNormal hDirectory hNode (fun file hMem => hNames file (hListed file hMem).1)
    (fun file hMem => hRoom file (hListed file hMem).1) (fun file hMem => (hListed file hMem).2) empty

end

/-- The library of a directory holds for each name the outcome of its file. Names of templates are
distinct, so no file hides another. -/
theorem holds_outcomes (directory : FilePath) (hStems : ((templateNames files place).map stemOf).Nodup)
    (stem : String) :
    (empty.addAll (outcomes files directory place)).Holds stem
      ((outcomes files directory place).lookup stem) := by
  rw [← map_fst_outcomes files directory place] at hStems
  simpa using holds_addAll hStems (holds_empty stem) fun _ => rfl

/-- The templates are those of the files whose bytes are one. -/
theorem templates_get?_eq_some (directory : FilePath)
    (hStems : ((templateNames files place).map stemOf).Nodup) {template : Template} :
    (empty.addAll (outcomes files directory place)).templates.get? stem = some template ↔
      ∃ file bytes, IsTemplateAt files place file bytes ∧ stemOf file = stem ∧
        Template.ofBytes? bytes = some template := by
  rw [(holds_outcomes directory hStems stem).template, Option.bind_eq_some_iff]
  constructor
  · rintro ⟨outcome, hLookup, hTemplate⟩
    obtain ⟨file, bytes, hFile, hStem, rfl⟩ := (lookup_outcomes hStems).1 hLookup
    exact ⟨file, bytes, hFile, hStem, by rw [← toOption_outcomeOf (directory.push file), hTemplate]⟩
  · rintro ⟨file, bytes, hFile, hStem, hTemplate⟩
    refine ⟨_, (lookup_outcomes hStems).2 ⟨file, bytes, hFile, hStem, rfl⟩, ?_⟩
    rw [toOption_outcomeOf, hTemplate]

/-- The failures are those of the files whose bytes are no template. -/
theorem failures_contains (directory : FilePath)
    (hStems : ((templateNames files place).map stemOf).Nodup) :
    (empty.addAll (outcomes files directory place)).failures.contains stem = true ↔
      ∃ file bytes, IsTemplateAt files place file bytes ∧ stemOf file = stem ∧
        Template.ofBytes? bytes = none := by
  rw [Table.contains, (holds_outcomes directory hStems stem).failure, Option.isSome_iff_exists]
  simp only [Option.bind_eq_some_iff]
  constructor
  · rintro ⟨failure, outcome, hLookup, hFailure⟩
    obtain ⟨file, bytes, hFile, hStem, hOutcome⟩ := (lookup_outcomes hStems).1 hLookup
    refine ⟨file, bytes, hFile, hStem, ?_⟩
    rw [← toOption_outcomeOf (directory.push file), hOutcome]
    cases outcome with
    | ok template => cases hFailure
    | error fault => rfl
  · rintro ⟨file, bytes, hFile, hStem, hNone⟩
    rw [← toOption_outcomeOf (directory.push file)] at hNone
    cases hOutcome : outcomeOf (directory.push file) bytes with
    | ok template =>
        rw [hOutcome] at hNone
        cases hNone
    | error failure =>
        exact ⟨failure, .error failure,
          (lookup_outcomes hStems).2 ⟨file, bytes, hFile, hStem, hOutcome⟩, rfl⟩

/-! ### Another content of a file -/

section

variable {changed : String} {old : List UInt8} (hNotUp : changed ≠ "..")
  (hOld : files.node? (place.push changed) = some (.file old)) (bytes : List UInt8)

include hNotUp hOld

/-- Changing the content of a file adds and removes no name. -/
theorem templateNames_withFile :
    templateNames (files.withFile (place.push changed) bytes) place = templateNames files place := by
  have hHolds : ∀ other, (files.withFile (place.push changed) bytes).holdsFile other =
      files.holdsFile other := by
    intro other
    rw [holdsFile, holdsFile, node?_withFile (place.isTop_push hNotUp)]
    by_cases hOther : other = place.push changed
    · rw [if_pos hOther, hOther, hOld]
    · rw [if_neg hOther]
  simp only [templateNames, namesIn_withFile_of_mem (mem_keys_of_file hOld), hHolds]

omit hOld in
/-- A content that nothing stops leaves a directory that nothing stops. -/
theorem oversizeIn?_withFile
    (hFits : ∀ file bytes, IsTemplateAt files place file bytes → Template.oversizeOf? bytes = none)
    (hNew : isTemplateFile changed = true → Template.oversizeOf? bytes = none) :
    oversizeIn? (files.withFile (place.push changed) bytes) place = none := by
  refine oversizeIn?_eq_none_iff.2 fun file found hTemplate => ?_
  have hNode := hTemplate.node
  rw [node?_withFile (place.isTop_push hNotUp)] at hNode
  split at hNode
  · next hSame =>
      obtain rfl := place.push_injective hSame
      cases hNode
      exact hNew hTemplate.kind
  · exact hFits file found ⟨hTemplate.kind, hNode⟩

/-- It counts only under the stem of that file. -/
theorem lookup_outcomes_withFile (directory : FilePath)
    (hOther : isTemplateFile changed = true → stem ≠ stemOf changed) :
    (outcomes (files.withFile (place.push changed) bytes) directory place).lookup stem =
      (outcomes files directory place).lookup stem := by
  rw [outcomes, outcomes, templateNames_withFile hNotUp hOld]
  refine Table.lookup_map_congr fun file hMem hStem => ?_
  have hFile : place.push file ≠ place.push changed := by
    intro hSame
    obtain rfl := place.push_injective hSame
    exact hOther (List.mem_filter.1 hMem).2 hStem.symm
  rw [bytesAt, bytesAt, node?_withFile (place.isTop_push hNotUp), if_neg hFile]

end

/-- Template files are loaded independently, up to the limit on digits and on names. In a directory
whose names all have room, and whose template files have different stems and no integer that stops
them, loading succeeds: the templates are those of the files that are UTF-8 and a template, the
failures are under the stems of the others, and another content of one file changes nothing under
another stem, if no integer of it stops it. With a template file that has an integer with too many
digits the whole library fails. And so it does if a name in the directory has no room, that of a
template file or not. -/
theorem ofDirectory_independent {files : FileSystem} {written : String} {place : FilePath}
    (hDirectory : files.locate (.ofString written) = .ok place)
    (hNode : files.node? place = some .directory)
    (hNames : ∀ file ∈ files.namesIn place, IsName file)
    (hStems : ∀ first firstBytes second secondBytes, IsTemplateAt files place first firstBytes →
      IsTemplateAt files place second secondBytes → stemOf first = stemOf second → first = second) :
    ((∀ file ∈ files.namesIn place, files.HasRoom ((FilePath.ofString written).push file)) →
      ((∀ file bytes, IsTemplateAt files place file bytes → Template.oversizeOf? bytes = none) →
        ∃ library, ofDirectory files (.ofString written) = .ok library ∧
          (∀ stem template, library.templates.get? stem = some template ↔
            ∃ file bytes, IsTemplateAt files place file bytes ∧ stemOf file = stem ∧
              Template.ofBytes? bytes = some template) ∧
          (∀ stem, library.failures.contains stem = true ↔
            ∃ file bytes, IsTemplateAt files place file bytes ∧ stemOf file = stem ∧
              Template.ofBytes? bytes = none) ∧
          ∀ changed old bytes, files.node? (place.push changed) = some (.file old) →
            (isTemplateFile changed = true → Template.oversizeOf? bytes = none) →
            ∃ library', ofDirectory (files.withFile (place.push changed) bytes)
                (.ofString written) = .ok library' ∧
              ∀ stem, (isTemplateFile changed = true → stem ≠ stemOf changed) →
                library'.templates.get? stem = library.templates.get? stem ∧
                  library'.failures.get? stem = library.failures.get? stem) ∧
      ((∃ file bytes, IsTemplateAt files place file bytes ∧ Template.oversizeOf? bytes ≠ none) →
        ∃ fault, ofDirectory files (.ofString written) = .error (.oversize fault))) ∧
    ((∃ file ∈ files.namesIn place, ¬files.HasRoom ((FilePath.ofString written).push file)) →
      ∃ fault, ofDirectory files (.ofString written) = .error (.file fault) ∧
        fault.cause = .nameTooLong) := by
  have hNormal := FilePath.normal_ofString written
  generalize FilePath.ofString written = directory at *
  have hDistinct : ((templateNames files place).map stemOf).Nodup := by
    have hNodup : (templateNames files place).Nodup := ((nodup_namesIn hNames).filter _).filter _
    refine hNodup.map_on fun first hFirst second hSecond hStem => ?_
    obtain ⟨firstBytes, hFirst⟩ := mem_templateNames.1 hFirst
    obtain ⟨secondBytes, hSecond⟩ := mem_templateNames.1 hSecond
    exact hStems first firstBytes second secondBytes hFirst hSecond hStem
  refine ⟨fun hRoom => ?_, fun hNoRoom => ?_⟩
  · have hLoaded := ofDirectory_eq hNormal hDirectory hNode hNames hRoom
    constructor
    · intro hFits
      rw [oversizeIn?_eq_none_iff.2 hFits] at hLoaded
      refine ⟨_, hLoaded, fun stem template => templates_get?_eq_some directory hDistinct,
        fun stem => failures_contains directory hDistinct, fun changed old bytes hOld hNew => ?_⟩
      have hNotUp := (hNames changed (mem_namesIn_of_file hOld)).notUp
      have hGrows := grows_withFile (place.isTop_push hNotUp) (by rw [hOld]; nofun) bytes
      have hListed := namesIn_withFile_of_mem (mem_keys_of_file hOld) bytes
      have hDistinct' := hDistinct
      rw [← templateNames_withFile hNotUp hOld bytes] at hDistinct'
      have hLoaded' := ofDirectory_eq hNormal (hGrows.locate hDirectory)
        (hGrows.directories place hNode) (hListed ▸ hNames)
        (fun file hMem => hGrows.hasRoom (hRoom file (hListed ▸ hMem)))
      rw [oversizeIn?_withFile hNotUp bytes hFits hNew] at hLoaded'
      refine ⟨_, hLoaded', fun stem hOther => ?_⟩
      have hWas := holds_outcomes directory hDistinct stem
      have hIs := holds_outcomes directory hDistinct' stem
      rw [lookup_outcomes_withFile hNotUp hOld bytes directory hOther] at hIs
      exact ⟨hIs.template.trans hWas.template.symm, hIs.failure.trans hWas.failure.symm⟩
    · rintro ⟨file, bytes, hTemplate, hOversize⟩
      cases hFault : oversizeIn? files place with
      | none => exact absurd (oversizeIn?_eq_none_iff.1 hFault file bytes hTemplate) hOversize
      | some fault =>
          rw [hFault] at hLoaded
          exact ⟨fault, hLoaded⟩
  · obtain ⟨file, hMem, hLong⟩ := hNoRoom
    obtain ⟨fault, hList, hCause⟩ :=
      list_of_noRoom hDirectory hNode hMem (hNames file hMem).toLeadsDown hLong
    refine ⟨fault, ?_, hCause⟩
    rw [ofDirectory, fileNames, isDirectory_eq_true hDirectory hNode, hList]
    rfl

/-- A file that is no text beside a template: each counts for itself, and stays what it is as the other
becomes something else. But nothing is left of both once the other is an action with the first number
that has too many digits. -/
theorem ofDirectory_independent_sample :
    let place : FilePath := ⟨"", ["templates"]⟩
    let good := place.push "Good.eqf"
    let files : FileSystem :=
      ⟨((Table.empty.put place .directory).put good
        (.file (Utf8.encode "desc \"Good\"\n".toList))).put (place.push "Bad.EQF") (.file [255]),
        Limits.usual⟩
    let long := (Template.Statement.action "Foo"
      [.number (toString (tenPow Integer.maxDigits : Int))] true).text
    (∃ library, ofDirectory files (.ofString "templates") = .ok library ∧
      library.templates.get? "Good" = some ⟨"Good", [], []⟩ ∧
      library.failures.contains "Bad" = true ∧
      ∃ library', ofDirectory (files.withFile good [255]) (.ofString "templates") = .ok library' ∧
        library'.failures.get? "Bad" = library.failures.get? "Bad") ∧
      ∃ fault, ofDirectory (files.withFile good (Utf8.encode long.toList)) (.ofString "templates") =
        .error (.oversize fault) := by
  intro place good files long
  have hDirectory : files.locate (.ofString "templates") = .ok place := by decide +kernel
  have hNode : files.node? place = some .directory := by decide +kernel
  have hListed : ∀ file ∈ files.namesIn place, file ∈ ["Good.eqf", "Bad.EQF"] := by
    have hKeys : ∀ file ∈ (files.nodes.keys.filter fun path => path.parent = place).map
        FilePath.name, file ∈ ["Good.eqf", "Bad.EQF"] := by decide +kernel
    exact fun file hMem => hKeys file (List.mem_mergeSort.1 hMem)
  have hNames : ∀ file ∈ files.namesIn place, IsName file := by
    intro file hMem
    rcases List.mem_pair.1 (hListed file hMem) with rfl | rfl <;>
      exact ⟨⟨by decide, by decide⟩, ⟨by decide, by decide, by decide⟩⟩
  have hStems {others : FileSystem} (hSame : others.namesIn place = files.namesIn place) :
      ∀ first firstBytes second secondBytes, IsTemplateAt others place first firstBytes →
        IsTemplateAt others place second secondBytes → stemOf first = stemOf second →
        first = second := by
    have hAll : ∀ first ∈ ["Good.eqf", "Bad.EQF"], ∀ second ∈ ["Good.eqf", "Bad.EQF"],
        stemOf first = stemOf second → first = second := by decide +kernel
    intro first _ second _ hFirst hSecond
    exact hAll first (hListed first (hSame ▸ mem_namesIn_of_file hFirst.node)) second
      (hListed second (hSame ▸ mem_namesIn_of_file hSecond.node))
  have hRoom : ∀ file ∈ files.namesIn place,
      files.HasRoom ((FilePath.ofString "templates").push file) := by
    intro file hMem
    rcases List.mem_pair.1 (hListed file hMem) with rfl | rfl <;>
      exact ⟨by decide +kernel, by decide +kernel⟩
  have hGood : IsTemplateAt files place "Good.eqf" (Utf8.encode "desc \"Good\"\n".toList) :=
    ⟨by decide +kernel, by decide +kernel⟩
  have hBad : IsTemplateAt files place "Bad.EQF" [255] := ⟨by decide +kernel, by decide +kernel⟩
  have hFits : ∀ file bytes, IsTemplateAt files place file bytes →
      Template.oversizeOf? bytes = none := by
    intro file bytes hTemplate
    rcases List.mem_pair.1 (hListed file (mem_namesIn_of_file hTemplate.node)) with rfl | rfl
    · cases hTemplate.node.symm.trans hGood.node
      decide +kernel
    · cases hTemplate.node.symm.trans hBad.node
      decide +kernel
  have hStops {bytes : List UInt8} (hStopped : Template.oversizeOf? bytes ≠ none) :
      ∃ fault, ofDirectory (files.withFile good bytes) (.ofString "templates") =
        .error (.oversize fault) := by
    have hTop : isTop good = false := by decide +kernel
    have hGrows := grows_withFile hTop (by rw [hGood.node]; nofun) bytes
    have hSame := namesIn_withFile_of_mem (mem_keys_of_file hGood.node) bytes
    have hNode' : (files.withFile good bytes).node? good = some (.file bytes) := by
      rw [node?_withFile hTop, if_pos rfl]
    obtain ⟨hLoads, -⟩ := ofDirectory_independent (hGrows.locate hDirectory)
      (hGrows.directories place hNode) (hSame ▸ hNames) (hStems hSame)
    have hRoom' : ∀ file ∈ (files.withFile good bytes).namesIn place,
        (files.withFile good bytes).HasRoom ((FilePath.ofString "templates").push file) :=
      fun file hMem => hGrows.hasRoom (hRoom file (hSame ▸ hMem))
    exact (hLoads hRoom').2 ⟨"Good.eqf", bytes, ⟨hGood.kind, hNode'⟩, hStopped⟩
  constructor
  · obtain ⟨library, hLibrary, hTemplates, hFailures, hChanged⟩ :=
      ((ofDirectory_independent hDirectory hNode hNames (hStems rfl)).1 hRoom).1 hFits
    obtain ⟨library', hLibrary', hOthers⟩ :=
      hChanged "Good.eqf" _ [255] hGood.node fun _ => by decide +kernel
    refine ⟨library, hLibrary, (hTemplates "Good" _).2 ⟨_, _, hGood, by decide +kernel, ?_⟩,
      (hFailures "Bad").2 ⟨_, _, hBad, by decide +kernel, by decide +kernel⟩, library', hLibrary',
      (hOthers "Bad" fun _ => by decide +kernel).2⟩
    decide +kernel
  · refine hStops (oversizeOf?_line (@Template.Statement.Proper.written Schema.empty _
      ⟨by decide +kernel, by decide +kernel,
        List.forall_mem_singleton.2 ⟨Integer.admits_toString _, fun _ => ⟨_, rfl⟩⟩⟩) ?_)
    intro hFew
    have hFits := hFew _ (List.mem_singleton_self _)
    rw [Integer.fits_tenPow_maxDigits] at hFits
    cases hFits

end TemplateLibrary

end QuestScript

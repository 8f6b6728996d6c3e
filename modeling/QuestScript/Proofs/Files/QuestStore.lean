import QuestScript.Proofs.Files.QuestFile
import QuestScript.Proofs.Quest.Same
import QuestScript.Proofs.Text.Lines
/-!
Quests in a directory. Quests that are saved to an empty directory are all there when the directory is
loaded, under their numbers and in the order of the numbers, in whatever order they were saved.

What the directory holds is known after each save: the names and the texts of the quests saved so far
and nothing else. Loading looks at nothing more than that.
-/

namespace QuestScript.QuestStore

open QuestScript.Text FileSystem

/-! ### What a directory holds -/

/-- A directory at a place that holds these texts under these names, and nothing else. -/
structure Stored (files : FileSystem) (directory place : FilePath) (texts : List (String × String)) :
    Prop where
  located : files.locate directory = .ok place
  isThere : files.node? place = some .directory
  entries : (files.nodes.keys.filter fun path => path.parent = place) =
    texts.map fun entry => place.push entry.1
  contents : ∀ entry ∈ texts, files.locate (directory.push entry.1) = .ok (place.push entry.1) ∧
    files.node? (place.push entry.1) = some (.file (Utf8.encode entry.2.toList))

variable {files : FileSystem} {directory place : FilePath} {texts : List (String × String)}
  {name text : String}

/-- An empty directory holds no texts. -/
theorem stored_of_names_eq_nil (hNames : files.names directory = .ok []) :
    ∃ place, Stored files directory place [] := by
  obtain ⟨place, hLocate, hNode, hNone⟩ := exists_of_names_eq_ok hNames
  refine ⟨place, hLocate, hNode, ?_, nofun⟩
  have hLength := congrArg List.length hNone
  rw [namesIn, List.length_mergeSort, List.length_map] at hLength
  exact List.length_eq_zero_iff.1 hLength

/-- A name that no stored text has is free in the directory, for a place below it is the place of
one of these files. -/
theorem Stored.notMem_keys (hStored : Stored files directory place texts)
    (hFresh : name ∉ texts.map Prod.fst) : place.push name ∉ files.nodes.keys := by
  intro hMem
  have hEntry : place.push name ∈ texts.map fun entry => place.push entry.1 := by
    rw [← hStored.entries, List.mem_filter]
    exact ⟨hMem, by simp⟩
  obtain ⟨entry, hText, hName⟩ := List.mem_map.1 hEntry
  exact hFresh (List.mem_map.2 ⟨entry, hText, place.push_injective hName⟩)

/-- Nothing stands where a new name leads to. -/
theorem Stored.node?_push (hStored : Stored files directory place texts) (hName : LeadsDown name)
    (hFresh : name ∉ texts.map Prod.fst) : files.node? (place.push name) ≠ some .directory := by
  rw [node?_eq_none (place.isTop_push hName.notUp) (hStored.notMem_keys hFresh)]
  nofun

/-- A text that is written under a new name is one more text. -/
theorem Stored.withFile (hStored : Stored files directory place texts)
    (hName : LeadsDown name) (hFresh : name ∉ texts.map Prod.fst)
    (hRoom : files.HasRoom (directory.push name)) (text : String) :
    files.Grows (files.withFile (place.push name) (Utf8.encode text.toList)) ∧
      Stored (files.withFile (place.push name) (Utf8.encode text.toList)) directory place
        (texts ++ [(name, text)]) := by
  have hTop := place.isTop_push hName.notUp
  have hKey := hStored.notMem_keys hFresh
  have hGrows := grows_withFile hTop (hStored.node?_push hName hFresh) (Utf8.encode text.toList)
  refine ⟨hGrows, hGrows.locate hStored.located, hGrows.directories _ hStored.isThere, ?_, ?_⟩
  · rw [keys_withFile hKey, List.filter_append, hStored.entries, List.map_append]
    simp
  · refine List.forall_mem_append.2 ⟨fun entry hText => ?_, List.forall_mem_singleton.2 ?_⟩
    · obtain ⟨hLocate, hNode⟩ := hStored.contents entry hText
      refine ⟨hGrows.locate hLocate, ?_⟩
      rw [node?_withFile hTop, if_neg, hNode]
      intro hPath
      exact hFresh (List.mem_map.2 ⟨entry, hText, place.push_injective hPath⟩)
    · refine ⟨hGrows.locate (locate_push hStored.located hStored.isThere hName hRoom), ?_⟩
      rw [node?_withFile hTop, if_pos rfl]

/-- Writing a text to a file of the directory makes the file and nothing else. -/
theorem Stored.write_eq (hStored : Stored files directory place texts) (hName : LeadsDown name)
    (hFresh : name ∉ texts.map Prod.fst) (hRoom : files.HasRoom (directory.push name))
    (text : String) :
    TextFile.write files (directory.push name) text =
      .ok (files.withFile (place.push name) (Utf8.encode text.toList)) := by
  have hLocate := locate_push hStored.located hStored.isThere hName hRoom
  rw [TextFile.write, write_eq_withFile hLocate (hStored.node?_push hName hFresh)]

/-- The names in the directory are those of the texts, in the order of the names. -/
theorem Stored.list_eq (hStored : Stored files directory place texts) :
    files.list directory = .ok ((texts.map Prod.fst).mergeSort textLe) := by
  have hNames : files.namesIn place = (texts.map Prod.fst).mergeSort textLe := by
    rw [namesIn, hStored.entries, List.map_map]
    simp [Function.comp_def]
  have hFiles : ∀ name ∈ (texts.map Prod.fst).mergeSort textLe,
      files.isFile (directory.push name) = .ok true := by
    intro name hMem
    obtain ⟨entry, hText, rfl⟩ := List.mem_map.1 (List.mem_mergeSort.1 hMem)
    obtain ⟨hLocate, hNode⟩ := hStored.contents entry hText
    exact isFile_eq_true hLocate hNode
  rw [FileSystem.list, names_eq_ok hStored.located hStored.isThere]
  dsimp only
  rw [hNames, onlyFiles_eq_self hFiles]

/-- A text without carriage returns is read back as it was written. -/
theorem Stored.read_eq (hStored : Stored files directory place texts) {entry : String × String}
    (hText : entry ∈ texts) (hPlain : '\r' ∉ entry.2.toList) :
    TextFile.read files (directory.push entry.1) = .ok entry.2 := by
  obtain ⟨hLocate, hNode⟩ := hStored.contents entry hText
  have hText' : TextFile.readExact files (directory.push entry.1) = .ok entry.2 := by
    rw [TextFile.readExact, read_eq_ok hLocate hNode]
    dsimp only
    rw [TextFile.ofBytes, Utf8.decode_encode]
    dsimp only
    rw [String.ofList_toList]
  rw [TextFile.read, hText', Except.map, unifyNewlines_eq_self hPlain, String.ofList_toList]

/-! ### Saving -/

/-- Saves quests in turn to one path, up to the first that cannot be saved. -/
def saveAll (schema : Schema) (pad : String) (path : FilePath) (files : FileSystem)
    (quests : List Quest) : Except SaveFault FileSystem :=
  quests.foldlM (fun files quest =>
    match save schema pad files path quest with
    | (files, .ok _) => .ok files
    | (_, .error fault) => .error fault) files

/-- The number that the file of a quest is named after. -/
def fileNumber (quest : Quest) : Int := quest.id.toInt?.getD 0

/-- A quest that can be kept in a file: it has a number for its name, it has a script that is read back
as the quest, and no character of that is lost in reading. -/
structure Storable (schema : Schema) (pad : String) (quest : Quest) : Prop where
  number : ∃ id : Int, 0 ≤ id ∧ quest.id = .int id
  script : ∃ text, quest.write schema pad = .ok text ∧ '\r' ∉ text.toList ∧
    ∃ back warnings, Quest.parse schema quest.id text = .ok (back, warnings) ∧
      back.same quest = true

variable {schema : Schema} {pad : String} {quest : Quest} {quests : List Quest}

theorem Storable.id_eq (hQuest : Storable schema pad quest) : quest.id = .int (fileNumber quest) := by
  obtain ⟨id, -, hId⟩ := hQuest.number
  rw [fileNumber, hId]
  rfl

theorem Storable.fileNumber_nonneg (hQuest : Storable schema pad quest) : 0 ≤ fileNumber quest := by
  obtain ⟨id, hNonneg, hId⟩ := hQuest.number
  rw [fileNumber, hId]
  exact hNonneg

/-- A quest that can be kept in a file can be written, so its printed text is the text of the
file. -/
theorem Storable.write_eq (hQuest : Storable schema pad quest) :
    quest.write schema pad = .ok (quest.print schema pad) := by
  obtain ⟨text, hWrite, -⟩ := hQuest.script
  rw [hWrite, (Integer.guarded_eq_ok.1 hWrite).2]

/-- A stored script has no carriage return. Reading a file would turn one into a line feed. -/
theorem Storable.plain (hQuest : Storable schema pad quest) :
    '\r' ∉ (quest.print schema pad).toList := by
  obtain ⟨text, hWrite, hPlain, -⟩ := hQuest.script
  rwa [(Integer.guarded_eq_ok.1 hWrite).2]

/-- Rereading the printed text gives the same quest, whichever file it has gone through. -/
theorem Storable.rereads (hQuest : Storable schema pad quest) :
    ∃ back warnings,
      Quest.parse schema quest.id (quest.print schema pad) = .ok (back, warnings) ∧
        back.same quest = true := by
  obtain ⟨text, hWrite, -, hRead⟩ := hQuest.script
  rwa [(Integer.guarded_eq_ok.1 hWrite).2]

/-- The name and the text that a quest is saved as. -/
def saved (schema : Schema) (pad : String) (quest : Quest) : String × String :=
  (QuestFile.name (fileNumber quest), quest.print schema pad)

/-- A quest for whose file there is room has a number that can be written. -/
theorem Storable.fits (hQuest : Storable schema pad quest)
    (hRoom : files.HasRoom (directory.push (QuestFile.name (fileNumber quest)))) :
    Integer.fits (fileNumber quest) = true :=
  QuestFile.fits_of_hasRoom hQuest.fileNumber_nonneg hRoom

/-- Saving a quest under a new number adds its text. -/
theorem Stored.save (hStored : Stored files directory place texts)
    (hQuest : Storable schema pad quest)
    (hFresh : QuestFile.name (fileNumber quest) ∉ texts.map Prod.fst)
    (hRoom : files.HasRoom (directory.push (QuestFile.name (fileNumber quest)))) :
    ∃ files' receipt, QuestStore.save schema pad files directory quest = (files', .ok receipt) ∧
      files.Grows files' ∧ Stored files' directory place (texts ++ [saved schema pad quest]) := by
  have hName := QuestFile.name_leadsDown hQuest.fileNumber_nonneg
  have hFault := Integer.textFault?_eq_none_iff.2 (hQuest.fits hRoom)
  have hTarget : target files directory quest =
      .ok (directory.push (QuestFile.name (fileNumber quest))) := by
    rw [target, isDirectory_eq_true hStored.located hStored.isThere, hQuest.id_eq]
    dsimp only
    rw [fileName, hFault]
    rfl
  obtain ⟨hGrows, hStored'⟩ := hStored.withFile hName hFresh hRoom (quest.print schema pad)
  refine ⟨_, ⟨directory.push (QuestFile.name (fileNumber quest)), quest.print schema pad⟩, ?_, hGrows,
    hStored'⟩
  rw [QuestStore.save, hTarget]
  dsimp only
  rw [FilePath.push_parent, ensureDirectories_eq_self hStored.located hStored.isThere]
  dsimp only
  rw [saveTo, hQuest.write_eq]
  dsimp only
  rw [hStored.write_eq hName hFresh hRoom]
  dsimp only
  rw [hQuest.id_eq, Number.textFault?, hFault]
  rfl

/-- Quests of different numbers are all saved, in any order. -/
theorem Stored.saveAll (hStored : Stored files directory place texts)
    (hQuests : ∀ quest ∈ quests, Storable schema pad quest)
    (hNames : (texts.map Prod.fst ++
      quests.map fun quest => QuestFile.name (fileNumber quest)).Nodup)
    (hRoom : ∀ quest ∈ quests, files.HasRoom (directory.push (QuestFile.name (fileNumber quest)))) :
    ∃ files', QuestStore.saveAll schema pad directory files quests = .ok files' ∧
      Stored files' directory place (texts ++ quests.map (saved schema pad)) := by
  induction quests generalizing files texts with
  | nil => exact ⟨files, rfl, by simpa using hStored⟩
  | cons quest quests ih =>
      obtain ⟨hFirst, hRest⟩ := List.forall_mem_cons.1 hQuests
      obtain ⟨hRoomFirst, hRoomRest⟩ := List.forall_mem_cons.1 hRoom
      obtain ⟨files', receipt, hSave, hGrows, hStored'⟩ :=
        hStored.save hFirst (notMem_of_nodup_append hNames) hRoomFirst
      have hNames' : ((texts ++ [saved schema pad quest]).map Prod.fst ++
          quests.map fun quest => QuestFile.name (fileNumber quest)).Nodup := by
        simpa [saved] using hNames
      obtain ⟨files'', hSaveAll, hStored''⟩ := ih hStored' hRest hNames'
        fun quest hMem => hGrows.hasRoom (hRoomRest quest hMem)
      refine ⟨files'', ?_, by simpa using hStored''⟩
      rw [QuestStore.saveAll, List.foldlM_cons, hSave]
      exact hSaveAll

/-! ### Loading -/

/-- Names that are made from numbers, in any order, all count, and give the numbers back. -/
theorem mapM_number_perm {names : List String} {numbers : List Int} (directory : FilePath)
    (hNames : names.Perm (numbers.map QuestFile.name))
    (hNumbers : ∀ number ∈ numbers, 0 ≤ number ∧ Integer.fits number = true) :
    ∃ found, ((names.filter isQuestFile).mapM fun name =>
        (QuestFile.number (directory.push name)).map fun number => (number, directory.push name)) =
          .ok found ∧
      found.Perm (numbers.map fun number => (number, directory.push (QuestFile.name number))) := by
  let entry (name : String) : Int × FilePath :=
    ((QuestFile.number (directory.push name)).toOption.getD 0, directory.push name)
  have hEntry {number : Int} (hMem : number ∈ numbers) :
      entry (QuestFile.name number) = (number, directory.push (QuestFile.name number)) := by
    simp only [entry, QuestFile.number_push_name directory (hNumbers number hMem).1
      (hNumbers number hMem).2]
    rfl
  have hMade {name : String} (hMem : name ∈ names) :
      ∃ number ∈ numbers, QuestFile.name number = name :=
    List.mem_map.1 (hNames.mem_iff.1 hMem)
  have hKept : names.filter isQuestFile = names := by
    refine List.filter_eq_self.2 fun name hMem => ?_
    obtain ⟨number, hNumber, rfl⟩ := hMade hMem
    exact QuestFile.isQuestFile_name (hNumbers number hNumber).1
  refine ⟨names.map entry, ?_, ?_⟩
  · rw [hKept]
    refine mapM_eq_ok fun name hMem => ?_
    obtain ⟨number, hNumber, rfl⟩ := hMade hMem
    rw [hEntry hNumber, QuestFile.number_push_name directory (hNumbers number hNumber).1
      (hNumbers number hNumber).2]
    rfl
  · refine (hNames.map entry).trans (.of_eq ?_)
    rw [List.map_map]
    exact List.map_congr_left fun number hNumber => hEntry hNumber

/-- The quest files of the directory are those of the quests, in the order of the numbers. -/
theorem Stored.numbered (hStored : Stored files directory place (quests.map (saved schema pad)))
    (hQuests : ∀ quest ∈ quests, Storable schema pad quest)
    (hFits : ∀ quest ∈ quests, Integer.fits (fileNumber quest) = true) :
    ∃ found, QuestStore.numbered files directory = .ok found ∧
      found.Pairwise (fun left right => left.1 ≤ right.1) ∧
      found.Perm ((quests.map fileNumber).map fun number =>
        (number, directory.push (QuestFile.name number))) := by
  have hNames : (((quests.map (saved schema pad)).map Prod.fst).mergeSort textLe).Perm
      ((quests.map fileNumber).map QuestFile.name) := by
    refine (List.mergeSort_perm _ textLe).trans (.of_eq ?_)
    rw [List.map_map, List.map_map]
    rfl
  obtain ⟨found, hFound, hPerm⟩ := mapM_number_perm directory hNames
    (List.forall_mem_map.2 fun quest hMem =>
      ⟨(hQuests quest hMem).fileNumber_nonneg, hFits quest hMem⟩)
  refine ⟨found.mergeSort fun left right => decide (left.1 ≤ right.1), ?_, ?_,
    (List.mergeSort_perm _ _).trans hPerm⟩
  · rw [QuestStore.numbered, hStored.list_eq]
    dsimp only
    rw [hFound]
  · have hSorted : (found.mergeSort fun left right => decide (left.1 ≤ right.1)).Pairwise
        fun left right => decide (left.1 ≤ right.1) = true := by
      refine List.pairwise_mergeSort (fun a b c hFirst hSecond => ?_) (fun a b => ?_) found
      · rw [decide_eq_true_eq] at *
        exact Int.le_trans hFirst hSecond
      · rw [Bool.or_eq_true, decide_eq_true_eq, decide_eq_true_eq]
        exact Int.le_total a.1 b.1
    exact hSorted.imp fun hLe => of_decide_eq_true hLe

/-- The file of a quest is loaded as a quest equal to it. -/
theorem Stored.load (hStored : Stored files directory place (quests.map (saved schema pad)))
    (hMem : quest ∈ quests) (hQuest : Storable schema pad quest)
    (hFits : Integer.fits (fileNumber quest) = true) :
    ∃ back warnings, QuestStore.load schema files
        (directory.push (QuestFile.name (fileNumber quest))) = .ok (back, warnings) ∧
      back.same quest = true := by
  obtain ⟨back, warnings, hParse, hSame⟩ := hQuest.rereads
  have hRead := hStored.read_eq (List.mem_map_of_mem hMem) hQuest.plain
  refine ⟨back, warnings, ?_, hSame⟩
  rw [hQuest.id_eq] at hParse
  simp only [saved] at hRead
  rw [QuestStore.load, hRead]
  dsimp only
  rw [QuestFile.number_push_name directory hQuest.fileNumber_nonneg hFits]
  dsimp only
  rw [hParse]
  rfl

/-- Files of different numbers are all loaded, in their order, each under its number. -/
theorem foldlM_take {found : List (Int × FilePath)} {Good : Int → Quest → Prop} {loaded : Loaded}
    (hLoads : ∀ entry ∈ found, ∃ quest warnings,
      load schema files entry.2 = .ok (quest, warnings) ∧ Good entry.1 quest)
    (hKeys : (loaded.quests.keys ++ found.map Prod.fst).Nodup)
    (hLoaded : ∀ entry ∈ loaded.quests.entries, Good entry.1 entry.2) :
    ∃ loaded', found.foldlM (Loaded.take schema files) loaded = .ok loaded' ∧
      loaded'.quests.keys = loaded.quests.keys ++ found.map Prod.fst ∧
      ∀ entry ∈ loaded'.quests.entries, Good entry.1 entry.2 := by
  induction found generalizing loaded with
  | nil => exact ⟨loaded, rfl, by simp, hLoaded⟩
  | cons entry found ih =>
      obtain ⟨⟨quest, warnings, hLoad, hGood⟩, hRest⟩ := List.forall_mem_cons.1 hLoads
      have hKeys' := Table.keys_put (notMem_of_nodup_append hKeys) quest
      let next : Loaded := ⟨loaded.quests.put entry.1 quest, loaded.warnings ++ warnings⟩
      have hTake : Loaded.take schema files loaded entry = .ok next := by
        rw [Loaded.take, hLoad]
        rfl
      have hNext : ∀ read ∈ next.quests.entries, Good read.1 read.2 := by
        intro read hMem
        rcases Table.mem_putEntry hMem with rfl | hOld
        · exact hGood
        · exact hLoaded read hOld
      have hNextKeys : (next.quests.keys ++ found.map Prod.fst).Nodup := by
        simpa [next, hKeys'] using hKeys
      obtain ⟨loaded', hFold, hLoadedKeys, hAll⟩ := ih hRest hNextKeys hNext
      refine ⟨loaded', ?_, ?_, hAll⟩
      · rw [List.foldlM_cons, hTake]
        exact hFold
      · rw [hLoadedKeys, hKeys']
        simp

/-- Quests that a directory holds are all loaded from it, and nothing else is. -/
theorem Stored.loadDirectory
    (hStored : Stored files directory place (quests.map (saved schema pad)))
    (hQuests : ∀ quest ∈ quests, Storable schema pad quest)
    (hFits : ∀ quest ∈ quests, Integer.fits (fileNumber quest) = true)
    (hDistinct : (quests.map fileNumber).Nodup) :
    ∃ loaded, QuestStore.loadDirectory schema files directory = .ok loaded ∧
      loaded.quests.keys.Pairwise (· < ·) ∧ loaded.quests.keys.Perm (quests.map fileNumber) ∧
      ∀ quest ∈ quests, ∃ back, loaded.quests.get? (fileNumber quest) = some back ∧
        back.same quest = true := by
  obtain ⟨found, hFound, hSorted, hPerm⟩ := hStored.numbered hQuests hFits
  have hKeys : (found.map Prod.fst).Perm (quests.map fileNumber) := by
    refine (hPerm.map Prod.fst).trans (.of_eq ?_)
    simp [Function.comp_def]
  have hFresh : (found.map Prod.fst).Nodup := hKeys.nodup_iff.2 hDistinct
  -- Numbers are distinct, so a file that is loaded under a number holds the one quest of that number.
  let Good (number : Int) (back : Quest) : Prop :=
    ∀ quest ∈ quests, fileNumber quest = number → back.same quest = true
  have hLoads : ∀ entry ∈ found, ∃ back warnings,
      QuestStore.load schema files entry.2 = .ok (back, warnings) ∧ Good entry.1 back := by
    intro entry hEntry
    obtain ⟨number, hNumber, rfl⟩ := List.mem_map.1 (hPerm.mem_iff.1 hEntry)
    obtain ⟨quest, hQuest, rfl⟩ := List.mem_map.1 hNumber
    obtain ⟨back, warnings, hLoad, hSame⟩ :=
      hStored.load hQuest (hQuests quest hQuest) (hFits quest hQuest)
    refine ⟨back, warnings, hLoad, fun other hOther hEq => ?_⟩
    rwa [List.inj_on_of_nodup_map hDistinct hOther hQuest hEq]
  let start : Loaded := ⟨Table.empty, []⟩
  have hStart : (start.quests.keys ++ found.map Prod.fst).Nodup := hFresh
  have hNothing : ∀ entry ∈ start.quests.entries, Good entry.1 entry.2 :=
    fun entry hMem => absurd hMem List.not_mem_nil
  obtain ⟨loaded, hFold, hLoadedKeys, hGood⟩ := foldlM_take hLoads hStart hNothing
  have hLoadedKeys' : loaded.quests.keys = found.map Prod.fst := hLoadedKeys
  rw [← hLoadedKeys'] at hKeys hFresh
  refine ⟨loaded, ?_, ?_, hKeys, fun quest hMem => ?_⟩
  · rw [QuestStore.loadDirectory, hFound]
    exact hFold
  · have hOrdered : (found.map Prod.fst).Pairwise (· ≤ ·) := List.pairwise_map.2 hSorted
    rw [← hLoadedKeys'] at hOrdered
    exact (hOrdered.and hFresh).imp Int.lt_iff_le_and_ne.2
  · obtain ⟨entry, hEntry, hNumber⟩ :=
      List.mem_map.1 (hKeys.mem_iff.2 (List.mem_map_of_mem hMem))
    refine ⟨entry.2, ?_, hGood entry hEntry quest hMem hNumber.symm⟩
    rw [← hNumber]
    exact Table.lookup_of_mem loaded.quests.distinct hEntry

/-- Quests with different numbers, each of which comes back from its script, are saved to an empty
directory one after another, in any order. Then they are all loaded from it and nothing else is:
under their numbers, in increasing order, each as a quest equal to the one that was saved. For the file
of each quest there must be room: neither its name nor its path may be longer than the file system
allows, so no number has more digits than are converted either. -/
theorem loadDirectory_saveAll (schema : Schema) (pad : String) {files : FileSystem}
    {directory : FilePath} {quests : List Quest} (hEmpty : files.names directory = .ok [])
    (hDistinct : (quests.map Quest.id).Nodup)
    (hQuests : ∀ quest ∈ quests, Storable schema pad quest)
    (hRoom : ∀ quest ∈ quests, ∀ id, quest.id = .int id →
      files.HasRoom (directory.push (QuestFile.name id))) :
    ∃ files' loaded, saveAll schema pad directory files quests = .ok files' ∧
      loadDirectory schema files' directory = .ok loaded ∧
      loaded.quests.keys.Pairwise (· < ·) ∧
      (loaded.quests.keys.map Number.int).Perm (quests.map Quest.id) ∧
      ∀ quest ∈ quests, ∃ id back, quest.id = .int id ∧ loaded.quests.get? id = some back ∧
        back.same quest = true := by
  have hIds : quests.map Quest.id = (quests.map fileNumber).map Number.int := by
    rw [List.map_map]
    exact List.map_congr_left fun quest hMem => (hQuests quest hMem).id_eq
  have hNumbers : (quests.map fileNumber).Nodup := by
    rw [hIds] at hDistinct
    exact hDistinct.of_map
  have hNonneg : ∀ number ∈ quests.map fileNumber, 0 ≤ number :=
    List.forall_mem_map.2 fun quest hMem => (hQuests quest hMem).fileNumber_nonneg
  have hNames : (quests.map fun quest => QuestFile.name (fileNumber quest)).Nodup := by
    have hNodup := hNumbers.map_on fun number hNumber other hOther =>
      QuestFile.name_injective (hNonneg number hNumber) (hNonneg other hOther)
    rwa [List.map_map] at hNodup
  obtain ⟨place, hNone⟩ := stored_of_names_eq_nil hEmpty
  obtain ⟨files', hSave, hStored⟩ := hNone.saveAll hQuests (by simpa using hNames)
    fun quest hMem => hRoom quest hMem _ (hQuests quest hMem).id_eq
  rw [List.nil_append] at hStored
  have hFits : ∀ quest ∈ quests, Integer.fits (fileNumber quest) = true :=
    fun quest hMem => (hQuests quest hMem).fits (hRoom quest hMem _ (hQuests quest hMem).id_eq)
  obtain ⟨loaded, hLoad, hIncreasing, hKeys, hSame⟩ := hStored.loadDirectory hQuests hFits hNumbers
  refine ⟨files', loaded, hSave, hLoad, hIncreasing, ?_, fun quest hMem => ?_⟩
  · rw [hIds]
    exact hKeys.map Number.int
  · obtain ⟨back, hBack, hEq⟩ := hSame quest hMem
    exact ⟨fileNumber quest, back, (hQuests quest hMem).id_eq, hBack, hEq⟩

/-- Three quests saved out of order. The last number needs a digit more than names are padded to, so
its file comes first by name. -/
theorem loadDirectory_saveAll_sample :
    let directory : FilePath := ⟨"", ["quests"]⟩
    let files : FileSystem := ⟨Table.empty.put directory .directory, Limits.usual⟩
    let quests : List Quest :=
      [{ Quest.blank 100000 with name := "C" }, { Quest.blank 7 with name := "A" },
        { Quest.blank 99999 with name := "B" }]
    files.names directory = .ok [] ∧ (quests.map Quest.id).Nodup ∧
      (∀ quest ∈ quests, Storable Schema.empty "  " quest) ∧
      ∃ files' loaded, saveAll Schema.empty "  " directory files quests = .ok files' ∧
        loadDirectory Schema.empty files' directory = .ok loaded ∧
        loaded.quests.keys.Pairwise (· < ·) ∧
        (loaded.quests.keys.map Number.int).Perm (quests.map Quest.id) := by
  intro directory files quests
  have hEmpty : files.names directory = .ok [] := by decide +kernel
  have hDistinct : (quests.map Quest.id).Nodup := by decide +kernel
  have hNumbers : ∀ quest ∈ quests, 0 ≤ fileNumber quest ∧ quest.id = .int (fileNumber quest) := by
    decide +kernel
  have hQuests : ∀ quest ∈ quests, Storable Schema.empty "  " quest := by
    have hWrite : ∀ quest ∈ quests, quest.fault? Schema.empty = none ∧
        '\r' ∉ (quest.print Schema.empty "  ").toList := by
      decide +kernel
    have hRereads : ∀ quest ∈ quests,
        (Quest.parse Schema.empty quest.id (quest.print Schema.empty "  ")).toOption.map
          (fun result => result.1.same quest) = some true := by
      decide +kernel
    intro quest hMem
    obtain ⟨hFault, hPlain⟩ := hWrite quest hMem
    have hRead := hRereads quest hMem
    refine ⟨⟨_, hNumbers quest hMem⟩, _, Integer.guarded_eq_ok.2 ⟨hFault, rfl⟩, hPlain, ?_⟩
    cases hParse : Quest.parse Schema.empty quest.id (quest.print Schema.empty "  ") with
    | error fault =>
        rw [hParse] at hRead
        cases hRead
    | ok result =>
        rw [hParse] at hRead
        exact ⟨result.1, result.2, rfl, Option.some.inj hRead⟩
  have hRoom : ∀ quest ∈ quests, ∀ id, quest.id = .int id →
      files.HasRoom (directory.push (QuestFile.name id)) := by
    have hFits : ∀ quest ∈ quests,
        (directory.push (QuestFile.name (fileNumber quest))).name.utf8ByteSize ≤ 255 ∧
          (directory.push (QuestFile.name (fileNumber quest))).toString.utf8ByteSize ≤ 4095 := by
      decide +kernel
    intro quest hMem id hId
    obtain rfl := Number.int.inj (hId.symm.trans (hNumbers quest hMem).2)
    exact ⟨(hFits quest hMem).1, (hFits quest hMem).2⟩
  obtain ⟨files', loaded, hSave, hLoad, hIncreasing, hKeys, -⟩ :=
    loadDirectory_saveAll Schema.empty "  " hEmpty hDistinct hQuests hRoom
  exact ⟨hEmpty, hDistinct, hQuests, files', loaded, hSave, hLoad, hIncreasing, hKeys⟩

end QuestScript.QuestStore

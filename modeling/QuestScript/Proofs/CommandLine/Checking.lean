import QuestScript.CommandLine.Report
import QuestScript.Proofs.Files.FileSystem
import Mathlib.Data.List.Forall2
/-!
Checks of several files. A file that is missing or cannot be opened, or whose script is malformed, is
complained of, and the files behind it are checked as they are alone. Bytes that are no text, digits of
a name that are no number, a path that is none, and an integer with too many digits stop the whole
check where it is.
-/

namespace QuestScript.CommandLine

open QuestScript.Text

/-! ### One file -/

/-- What stops the check of a file. -/
inductive Stops (schema : Schema) (files : FileSystem) (path : FilePath) : Crash → Prop
  | badPath {fault : FileSystem.Fault} (hRead : files.read path = .error fault)
      (hCause : fault.cause = .noPath) : Stops schema files path (.badPath fault)
  | undecodable {bytes : List UInt8} {fault : Utf8.Fault} (hRead : files.read path = .ok bytes)
      (hDecode : Utf8.decode bytes = .error fault) : Stops schema files path (.undecodable fault)
  | badDigits {text stem : String} (hRead : TextFile.read files path = .ok text)
      (hNumber : QuestFile.number path = .error (.badDigits stem)) :
      Stops schema files path (.badDigits (.badDigits stem))
  | longName {text : String} {fault : Integer.Oversize}
      (hRead : TextFile.read files path = .ok text)
      (hNumber : QuestFile.number path = .error (.oversize fault)) :
      Stops schema files path (.oversize fault)
  | longNumber {text : String} {number : Int} {fault : Script.Malformed} {oversize : Integer.Oversize}
      (hRead : TextFile.read files path = .ok text) (hNumber : questNumber path = .ok number)
      (hParse : Quest.parse schema number text = .error fault)
      (hCause : fault.cause = .oversize oversize) : Stops schema files path (.oversize oversize)

/-- What a check complains of: a file that is missing or cannot be read, or a malformed script. -/
inductive Refuses (schema : Schema) (files : FileSystem) (path : FilePath) : String → Prop
  | unreadable {fault : FileSystem.Fault} (hRead : files.read path = .error fault)
      (hCause : fault.cause ≠ .noPath) : Refuses schema files path fault.message
  | malformed {text : String} {number : Int} {fault : Script.Malformed}
      (hRead : TextFile.read files path = .ok text) (hNumber : questNumber path = .ok number)
      (hParse : Quest.parse schema number text = .error fault)
      (hCause : ∀ oversize, fault.cause ≠ .oversize oversize) :
      Refuses schema files path fault.message

/-- What a check accepts: a file with the script of a quest. -/
inductive Accepts (schema : Schema) (files : FileSystem) (path : FilePath) :
    Quest → List Warning → Prop
  | wellFormed {text : String} {number : Int} {quest : Quest} {warnings : List Warning}
      (hRead : TextFile.read files path = .ok text) (hNumber : questNumber path = .ok number)
      (hParse : Quest.parse schema number text = .ok (quest, warnings)) :
      Accepts schema files path quest warnings

variable {schema : Schema} {files : FileSystem} {path : FilePath} {paths : List FilePath}
  {crash : Crash} {complaint : String} {quest : Quest} {warnings : List Warning}

/-- Each way to stop a check is one error branch of the reader, taken before any quest is built.
-/
theorem readQuest_of_stops (hStops : Stops schema files path crash) :
    readQuest schema files path = .error crash := by
  cases hStops with
  | badPath hRead hCause =>
      rw [readQuest, TextFile.read_eq, hRead]
      dsimp only
      rw [if_pos hCause]
  | undecodable hRead hDecode =>
      rw [readQuest, TextFile.read_eq, hRead]
      dsimp only
      rw [hDecode]
  | badDigits hRead hNumber =>
      rw [readQuest, hRead, questNumber, hNumber]
  | longName hRead hNumber => rw [readQuest, hRead, questNumber, hNumber]
  | longNumber hRead hNumber hParse hCause =>
      rw [readQuest, hRead, hNumber]
      dsimp only
      rw [readScript, hParse]
      dsimp only
      rw [hCause]

/-- A refusal is reported as a complaint. It never becomes a crash, so the files behind it are
read. -/
theorem readQuest_of_refuses (hRefuses : Refuses schema files path complaint) :
    readQuest schema files path = .ok (.error complaint) := by
  cases hRefuses with
  | unreadable hRead hCause =>
      rw [readQuest, TextFile.read_eq, hRead]
      dsimp only
      rw [if_neg hCause]
  | malformed hRead hNumber hParse hCause =>
      rw [readQuest, hRead, hNumber]
      dsimp only
      rw [readScript, hParse]
      dsimp only
      split
      · next hOversize => exact absurd hOversize (hCause _)
      · rfl

/-- An accepted file gives its quest and the warnings of its script, in the order they were
raised. -/
theorem readQuest_of_accepts (hAccepts : Accepts schema files path quest warnings) :
    readQuest schema files path = .ok (.ok (quest, warnings)) := by
  obtain ⟨hRead, hNumber, hParse⟩ := hAccepts
  rw [readQuest, hRead, hNumber]
  dsimp only
  rw [readScript, hParse]

theorem not_stops_of_isOk (hRead : (readQuest schema files path).isOk = true) (crash : Crash) :
    ¬Stops schema files path crash := by
  intro hStops
  rw [readQuest_of_stops hStops] at hRead
  cases hRead

/-- A file stops the check, is refused, or is accepted. -/
theorem stops_or_refuses_or_accepts (schema : Schema) (files : FileSystem) (path : FilePath) :
    (∃ crash, Stops schema files path crash) ∨ (∃ complaint, Refuses schema files path complaint) ∨
      ∃ quest warnings, Accepts schema files path quest warnings := by
  cases hBytes : files.read path with
  | error fault =>
      by_cases hCause : fault.cause = .noPath
      · exact Or.inl ⟨_, .badPath hBytes hCause⟩
      · exact Or.inr (Or.inl ⟨_, .unreadable hBytes hCause⟩)
  | ok bytes =>
      cases hDecode : Utf8.decode bytes with
      | error fault => exact Or.inl ⟨_, .undecodable hBytes hDecode⟩
      | ok chars =>
          have hRead : TextFile.read files path = .ok (String.ofList (unifyNewlines chars)) := by
            rw [TextFile.read_eq, hBytes]
            dsimp only
            rw [hDecode]
          cases hNumber : questNumber path with
          | error crash =>
              rw [questNumber] at hNumber
              split at hNumber
              · cases hNumber
              · cases hNumber
              · next hDigits => exact Or.inl ⟨_, .badDigits hRead hDigits⟩
              · next hLong => exact Or.inl ⟨_, .longName hRead hLong⟩
          | ok number =>
              cases hParse : Quest.parse schema number (String.ofList (unifyNewlines chars)) with
              | error fault =>
                  by_cases hLong : ∃ oversize, fault.cause = .oversize oversize
                  · obtain ⟨oversize, hCause⟩ := hLong
                    exact Or.inl ⟨_, .longNumber hRead hNumber hParse hCause⟩
                  · exact Or.inr (Or.inl ⟨_, .malformed hRead hNumber hParse (not_exists.1 hLong)⟩)
              | ok parsed => exact Or.inr (Or.inr ⟨_, _, .wellFormed hRead hNumber hParse⟩)

theorem checkFile_of_stops (hStops : Stops schema files path crash) :
    checkFile schema files path = .error crash := by
  rw [checkFile, readQuest_of_stops hStops]
  rfl

theorem checkFile_of_refuses (hRefuses : Refuses schema files path complaint) :
    checkFile schema files path = .ok (Report.complaining 1 [about path complaint]) := by
  rw [checkFile, readQuest_of_refuses hRefuses]
  rfl

theorem checkFile_of_accepts (hAccepts : Accepts schema files path quest warnings) :
    checkFile schema files path = .ok (checked path quest warnings) := by
  rw [checkFile, readQuest_of_accepts hAccepts]
  rfl

/-- The report about a file, with the one line of the complaint or with the lines about the quest. -/
inductive FileReport (schema : Schema) (files : FileSystem) (path : FilePath) : Report → Prop
  | refused {complaint : String} (hRefuses : Refuses schema files path complaint) :
      FileReport schema files path (Report.complaining 1 [about path complaint])
  | accepted {quest : Quest} {warnings : List Warning}
      (hAccepts : Accepts schema files path quest warnings) :
      FileReport schema files path (checked path quest warnings)

variable {report : Report}

/-- The report of one file is the one its fate prescribes, whichever of the two fates that go on
it has. -/
theorem checkFile_of_fileReport (hReport : FileReport schema files path report) :
    checkFile schema files path = .ok report := by
  cases hReport with
  | refused hRefuses => exact checkFile_of_refuses hRefuses
  | accepted hAccepts => exact checkFile_of_accepts hAccepts

/-- A file that does not stop the check has a report, so a whole list of such files has one too.
-/
theorem exists_fileReport (hGoesOn : ∀ crash, ¬Stops schema files path crash) :
    ∃ report, FileReport schema files path report := by
  rcases stops_or_refuses_or_accepts schema files path with
    ⟨crash, hStops⟩ | ⟨complaint, hRefuses⟩ | ⟨quest, warnings, hAccepts⟩
  · exact absurd hStops (hGoesOn crash)
  · exact ⟨_, .refused hRefuses⟩
  · exact ⟨_, .accepted hAccepts⟩

/-- The exit code tells the files that are refused. -/
theorem FileReport.exitCode_eq (hReport : FileReport schema files path report) :
    (report.exitCode = 1 ∧ ∃ complaint, Refuses schema files path complaint) ∨
      (report.exitCode = 0 ∧ ¬∃ complaint, Refuses schema files path complaint) := by
  cases hReport with
  | refused hRefuses => exact Or.inl ⟨rfl, _, hRefuses⟩
  | accepted hAccepts =>
      refine Or.inr ⟨rfl, ?_⟩
      rintro ⟨complaint, hRefuses⟩
      have hBoth := (readQuest_of_refuses hRefuses).symm.trans (readQuest_of_accepts hAccepts)
      cases hBoth

theorem FileReport.written_eq (hReport : FileReport schema files path report) :
    report.written = none := by
  cases hReport <;> rfl

/-! ### Files in turn -/

namespace Report

def appendAll (reports : List Report) : Report := reports.foldr append silent

theorem appendAll_cons (report : Report) (reports : List Report) :
    appendAll (report :: reports) = report.append (appendAll reports) := rfl

theorem append_silent (report : Report) : report.append silent = report := by
  simp [append, silent]

/-- The output of a check is what the files print, one after the other. Nothing stands between
them. -/
theorem output_appendAll (reports : List Report) :
    (appendAll reports).output = String.join (reports.map Report.output) := by
  induction reports with
  | nil => rfl
  | cons report reports ih =>
      rw [appendAll_cons, append, ih, List.map_cons, String.join_cons]

/-- The complaints of a check are those of its files in the order of the command line. -/
theorem complaints_appendAll (reports : List Report) :
    (appendAll reports).complaints = String.join (reports.map Report.complaints) := by
  induction reports with
  | nil => rfl
  | cons report reports ih =>
      rw [appendAll_cons, append, ih, List.map_cons, String.join_cons]

end Report

variable {reports : List Report}

theorem checkFiles_singleton (schema : Schema) (files : FileSystem) (path : FilePath) :
    checkFiles schema files [path] = checkFile schema files path := by
  rw [checkFiles]
  cases checkFile schema files path with
  | error crash => rfl
  | ok report => exact congrArg Except.ok report.append_silent

/-- Files that do not stop the check are all reported on, in turn. -/
theorem checkFiles_of_reports (hReports : List.Forall₂ (FileReport schema files) paths reports) :
    checkFiles schema files paths = .ok (Report.appendAll reports) := by
  induction hReports with
  | nil => rfl
  | cons hFirst hMore ih =>
      rw [checkFiles, checkFile_of_fileReport hFirst, ih]
      rfl

/-- Reports exist for a whole command line as soon as none of its files stops the check. -/
theorem exists_reports (hGoesOn : ∀ path ∈ paths, ∀ crash, ¬Stops schema files path crash) :
    ∃ reports, List.Forall₂ (FileReport schema files) paths reports := by
  induction paths with
  | nil => exact ⟨[], .nil⟩
  | cons path paths ih =>
      obtain ⟨hFirst, hMore⟩ := List.forall_mem_cons.1 hGoesOn
      obtain ⟨report, hReport⟩ := exists_fileReport hFirst
      obtain ⟨reports, hReports⟩ := ih hMore
      exact ⟨report :: reports, .cons hReport hReports⟩

/-- The first file that stops the check stops it as a whole. -/
theorem checkFiles_of_stops {before : List FilePath} (after : List FilePath)
    (hGoesOn : ∀ other ∈ before, ∀ crash, ¬Stops schema files other crash)
    (hStops : Stops schema files path crash) :
    checkFiles schema files (before ++ path :: after) = .error crash := by
  induction before with
  | nil => rw [List.nil_append, checkFiles, checkFile_of_stops hStops]
  | cons first before ih =>
      obtain ⟨hFirst, hMore⟩ := List.forall_mem_cons.1 hGoesOn
      obtain ⟨report, hReport⟩ := exists_fileReport hFirst
      rw [List.cons_append, checkFiles, checkFile_of_fileReport hReport, ih hMore]
      rfl

/-- The exit code of the reports is one if some file is refused, and else zero. -/
theorem exitCode_appendAll (hReports : List.Forall₂ (FileReport schema files) paths reports) :
    ((Report.appendAll reports).exitCode = 1 ∧
        ∃ path ∈ paths, ∃ complaint, Refuses schema files path complaint) ∨
      ((Report.appendAll reports).exitCode = 0 ∧
        ¬∃ path ∈ paths, ∃ complaint, Refuses schema files path complaint) := by
  induction hReports with
  | nil => exact Or.inr ⟨rfl, by simp⟩
  | cons hFirst hMore ih =>
      rw [Report.appendAll_cons, List.exists_mem_cons_iff]
      rcases hFirst.exitCode_eq with ⟨hOne, hRefused⟩ | ⟨hZero, hNone⟩
      · left
        refine ⟨?_, Or.inl hRefused⟩
        rcases ih with ⟨hLater, -⟩ | ⟨hLater, -⟩ <;> simp [Report.append, hOne, hLater]
      · rcases ih with ⟨hLater, hRefused⟩ | ⟨hLater, hNoneLater⟩
        · exact Or.inl ⟨by simp [Report.append, hZero, hLater], Or.inr hRefused⟩
        · exact Or.inr ⟨by simp [Report.append, hZero, hLater], not_or.2 ⟨hNone, hNoneLater⟩⟩

/-- A check writes no file, whatever the files it reads hold. -/
theorem written_appendAll (hReports : List.Forall₂ (FileReport schema files) paths reports) :
    (Report.appendAll reports).written = none := by
  induction hReports with
  | nil => rfl
  | cons hFirst hMore ih =>
      rw [Report.appendAll_cons, Report.append, hFirst.written_eq, ih]
      rfl

/-! ### The command -/

/-- The schema of a check: that of the configuration. -/
def checkSchema (env : Environment) (files : FileSystem) (config : Option FilePath) :
    Except Crash Schema := do
  commandSchema files (← Invocation.source env ⟨config, .check []⟩)

def runCheck (env : Environment) (files : FileSystem) (config : Option FilePath)
    (paths : List FilePath) : Except Crash Report :=
  Invocation.run env files ⟨config, .check paths⟩

/-- The check of a command line reads its schema first. Without one no file is looked at. -/
theorem runCheck_eq (env : Environment) (files : FileSystem) (config : Option FilePath)
    (paths : List FilePath) :
    runCheck env files config paths =
      match checkSchema env files config with
      | .error crash => .error crash
      | .ok schema => checkFiles schema files paths := by
  have hSource : Invocation.source env ⟨config, .check paths⟩ =
      Invocation.source env ⟨config, .check []⟩ := rfl
  rw [runCheck, Invocation.run, checkSchema, hSource]
  cases Invocation.source env ⟨config, .check []⟩ with
  | error crash => rfl
  | ok source => rfl

variable {env : Environment} {config : Option FilePath}

theorem runCheck_of_schema (hSchema : checkSchema env files config = .ok schema)
    (paths : List FilePath) :
    runCheck env files config paths = checkFiles schema files paths := by
  rw [runCheck_eq, hSchema]

/-- A check of any files. Where the configuration gives no schema, there is no check. Otherwise, if no
file stops it, the check reports on every file in turn, as it does on that file alone, and writes
nothing; it exits with one exactly if a file is missing, cannot be read or is malformed, and else with
zero. If a file stops it, the check ends as that of the first such file alone. -/
theorem runCheck_reports (env : Environment) (files : FileSystem) (config : Option FilePath)
    (paths : List FilePath) :
    match checkSchema env files config with
    | .error crash => runCheck env files config paths = .error crash
    | .ok schema =>
      ((∀ path ∈ paths, ∀ crash, ¬Stops schema files path crash) →
        ∃ reports report,
          List.Forall₂ (fun path report => FileReport schema files path report ∧
            runCheck env files config [path] = .ok report) paths reports ∧
          runCheck env files config paths = .ok report ∧
          report.output = String.join (reports.map Report.output) ∧
          report.complaints = String.join (reports.map Report.complaints) ∧
          report.written = none ∧
          ((report.exitCode = 1 ∧ ∃ path ∈ paths, ∃ complaint, Refuses schema files path complaint) ∨
            (report.exitCode = 0 ∧
              ¬∃ path ∈ paths, ∃ complaint, Refuses schema files path complaint))) ∧
      ∀ before path after crash, paths = before ++ path :: after →
        (∀ other ∈ before, ∀ crash, ¬Stops schema files other crash) → Stops schema files path crash →
        runCheck env files config paths = .error crash ∧
          runCheck env files config [path] = .error crash := by
  cases hSchema : checkSchema env files config with
  | error crash => rw [runCheck_eq, hSchema]
  | ok schema =>
      have hRun := runCheck_of_schema hSchema
      have hAlone (path : FilePath) :
          runCheck env files config [path] = checkFile schema files path := by
        rw [hRun, checkFiles_singleton]
      refine ⟨fun hGoesOn => ?_, fun before path after crash hPaths hGoesOn hStops => ⟨?_, ?_⟩⟩
      · obtain ⟨reports, hReports⟩ := exists_reports hGoesOn
        refine ⟨reports, Report.appendAll reports, ?_, (hRun paths).trans (checkFiles_of_reports hReports),
          Report.output_appendAll reports, Report.complaints_appendAll reports,
          written_appendAll hReports, exitCode_appendAll hReports⟩
        exact hReports.imp fun path report hReport =>
          ⟨hReport, (hAlone path).trans (checkFile_of_fileReport hReport)⟩
      · rw [hPaths, hRun]
        exact checkFiles_of_stops after hGoesOn hStops
      · rw [hAlone]
        exact checkFile_of_stops hStops

/-- A file that is missing does not keep the file behind it from its report, but a file whose bytes are
no text does. -/
theorem runCheck_reports_sample :
    let bad : FilePath := ⟨"", ["bad.eqf"]⟩
    let good : FilePath := ⟨"", ["00001.eqf"]⟩
    let missing : FilePath := ⟨"", ["missing.eqf"]⟩
    let files : FileSystem :=
      ⟨(Table.empty.put bad (.file [255])).put good
        (.file (Utf8.encode "State A \x7b\n  End();\n\x7d\n".toList)), FileSystem.Limits.usual⟩
    let schema := Schema.builtin.withDefaults
    checkSchema Table.empty files none = .ok schema ∧
      (∀ path ∈ [missing, good], ∀ crash, ¬Stops schema files path crash) ∧
      (∃ report, runCheck Table.empty files none [missing, good] = .ok report ∧
        report.exitCode = 1) ∧
      Stops schema files bad (.undecodable ⟨0, [255], .invalidStart⟩) ∧
      runCheck Table.empty files none [bad, good] = .error (.undecodable ⟨0, [255], .invalidStart⟩) := by
  intro bad good missing files schema
  have hSchema : checkSchema Table.empty files none = .ok schema := rfl
  have hAbsent : files.read missing = .error ⟨.notFound, "missing.eqf"⟩ := by decide +kernel
  have hBytes : files.read bad = .ok [255] := by decide +kernel
  have hStops : Stops schema files bad (.undecodable ⟨0, [255], .invalidStart⟩) :=
    .undecodable hBytes (by decide +kernel)
  have hReads : ∀ path ∈ [missing, good],
      (readQuest schema files path).isOk = true := by decide +kernel
  have hGoesOn : ∀ path ∈ [missing, good], ∀ crash, ¬Stops schema files path crash :=
    fun path hMem => not_stops_of_isOk (hReads path hMem)
  have hBoth := runCheck_reports Table.empty files none [missing, good]
  have hBad := runCheck_reports Table.empty files none [bad, good]
  rw [hSchema] at hBoth hBad
  obtain ⟨-, report, -, hRun, -, -, -, hExit⟩ := hBoth.1 hGoesOn
  have hOne : report.exitCode = 1 :=
    hExit.elim And.left fun hZero =>
      absurd ⟨missing, by simp, _, .unreadable hAbsent (by decide)⟩ hZero.2
  exact ⟨hSchema, hGoesOn, ⟨report, hRun, hOne⟩, hStops,
    (hBad.2 [] bad [good] _ rfl (by simp) hStops).1⟩

end QuestScript.CommandLine

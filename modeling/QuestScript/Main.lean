import QuestScript.CommandLine.Report
/-!
The program: checks, formats and starts quest scripts. This layer reads the files that a command
looks at, runs the command on them, and carries out what it reports.

Only single files are read here. A directory cannot be listed, so templates are listed for the
bundled configuration alone.
-/

namespace QuestScript.CommandLine

def usage : String :=
  "usage: questscript [-h] [--config-dir DIR] COMMAND ...\n" ++
  "  check FILE ...                         report errors and warnings\n" ++
  "  format FILE [--write] [--indent N]     write in the normal layout\n" ++
  "  templates                              list the state templates\n" ++
  "  skeleton [NAME] [--id N]               write a quest to start from, or list them\n" ++
  "  validate FILE                          check a quest document"

def variableNames : List String := ["EQF_CONFIG_DIR", "EQF_INDENT", "HOME"]

def readEnvironment : IO Environment :=
  variableNames.foldlM (fun env name => do
    match ← IO.getEnv name with
    | some value => return env.put name value
    | none => return env) Table.empty

/-- Adds what is at a path to a file system. What is there and cannot be read is a directory. -/
def addPath (files : FileSystem) (path : FilePath) : IO FileSystem := do
  match ← (IO.FS.readBinFile path.toString).toBaseIO with
  | .ok bytes =>
    let made := (files.ensureDirectories path.parent).files
    return (made.write path bytes.toList).toOption.getD made
  | .error (.noFileOrDirectory ..) => return files
  | .error _ => return (files.ensureDirectories path).files

def carryOut (report : Report) : IO UInt32 := do
  if let some (path, text) := report.written then IO.FS.writeFile path.toString text
  IO.print report.output
  IO.eprint report.complaints
  return UInt32.ofNat report.exitCode

def Invocation.perform (invocation : Invocation) : IO UInt32 := do
  let env ← readEnvironment
  match invocation.source env, invocation.command with
  | .error crash, _ => IO.eprintln crash.message; return 1
  | .ok (.directory path), .templates =>
    IO.eprintln ("cannot list " ++ (Settings.templatesPath path).toString)
    return 1
  | .ok source, command =>
    let files ← (command.reads source).foldlM addPath FileSystem.empty
    match command.run env files source with
    | .error crash => IO.eprintln crash.message; return 1
    | .ok report => carryOut report

end QuestScript.CommandLine

open QuestScript.CommandLine in
/-- The program. -/
def main (arguments : List String) : IO UInt32 := do
  match Invocation.ofArguments arguments with
  | .error .help => IO.println usage; return 0
  | .error .wrong => IO.eprintln usage; return 2
  | .ok invocation => invocation.perform

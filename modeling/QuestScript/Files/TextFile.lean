import QuestScript.Files.FileSystem
import QuestScript.Text.Lines
import QuestScript.Text.Utf8
/-!
Files of text. Their bytes are UTF-8; reading folds the newline conventions into the line feed.
-/

namespace QuestScript.TextFile

open QuestScript.Text

/-- Why a text cannot be read: there is no such file, or its bytes are no text. -/
inductive Fault where
  | file (fault : FileSystem.Fault)
  | bytes (fault : Utf8.Fault)
deriving DecidableEq, Repr

def Fault.message : Fault → String
  | .file fault => fault.message
  | .bytes fault => fault.message

/-- The text of bytes, with its newlines as they are. -/
def ofBytes (bytes : List UInt8) : Except Fault String :=
  match Utf8.decode bytes with
  | .ok text => .ok (String.ofList text)
  | .error fault => .error (.bytes fault)

/-- The text of a file, with its newlines as they are. -/
def readExact (files : FileSystem) (path : FilePath) : Except Fault String :=
  match files.read path with
  | .ok bytes => ofBytes bytes
  | .error fault => .error (.file fault)

def read (files : FileSystem) (path : FilePath) : Except Fault String :=
  (readExact files path).map fun text => String.ofList (unifyNewlines text.toList)

def write (files : FileSystem) (path : FilePath) (text : String) :
    Except FileSystem.Fault FileSystem :=
  files.write path (Utf8.encode text.toList)

/-- A document that cannot be read, with its path as it was written. -/
structure Unreadable where
  written : String
  fault : Fault
deriving DecidableEq, Repr

def Unreadable.message (document : Unreadable) : String :=
  "Could not read " ++ document.written ++ ": " ++ document.fault.message

/-- The text of the document at a path, or why it cannot be read. A text that is no path is a fault
of its own. -/
def readDocument (files : FileSystem) (path : String) :
    Except FileSystem.Fault (Except Unreadable String) :=
  match read files (FilePath.ofString path) with
  | .ok text => .ok (.ok text)
  | .error (.bytes fault) => .ok (.error ⟨path, .bytes fault⟩)
  | .error (.file fault) =>
    if fault.cause = .noPath then .error fault else .ok (.error ⟨path, .file fault⟩)

end QuestScript.TextFile

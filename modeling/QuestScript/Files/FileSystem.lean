import QuestScript.Files.FilePath
import QuestScript.Table
import QuestScript.Text.Quoted
/-!
File systems as values: what is at which place. A path is followed name by name, so a directory
that is missing on the way is noticed also where two points lead out of it again.
-/

namespace QuestScript

namespace FileSystem

/-- What is at a place. -/
inductive Node where
  | file (bytes : List UInt8)
  | directory
deriving DecidableEq, Repr

/-- Why a path cannot be used as it was meant. A path with a null character is none. -/
inductive Cause where
  | notFound
  | alreadyExists
  | notDirectory
  | isDirectory
  | nameTooLong
  | noPath
deriving DecidableEq, Repr

/-- The wording of a cause, with its number if it has one. -/
def Cause.message : Cause → String
  | .notFound => "[Errno 2] No such file or directory"
  | .alreadyExists => "[Errno 17] File exists"
  | .notDirectory => "[Errno 20] Not a directory"
  | .isDirectory => "[Errno 21] Is a directory"
  | .nameTooLong => "[Errno 36] File name too long"
  | .noPath => "embedded null byte"

/-- A path that cannot be used, as it was given, and why. -/
structure Fault where
  cause : Cause
  path : String
deriving DecidableEq, Repr

/-- The wording of a fault. It names the path if it is one. -/
def Fault.message (fault : Fault) : String :=
  if fault.cause = .noPath then fault.cause.message
  else fault.cause.message ++ ": " ++ Text.quoted fault.path

/-- The most bytes that a name and a path may have. No path has more than a page of memory. -/
structure Limits where
  nameBytes : Nat
  pathBytes : Nat
  pathBytes_le : pathBytes ≤ 4096
deriving DecidableEq, Repr

def Limits.usual : Limits := ⟨255, 4095, by decide⟩

end FileSystem

open FileSystem

/-- Files and directories by their place, and the limits of names and paths. The places that lie above
all others need no entry: they are directories. -/
structure FileSystem where
  nodes : Table FilePath Node
  limits : Limits
deriving DecidableEq, Repr

namespace FileSystem

def empty : FileSystem := ⟨Table.empty, Limits.usual⟩

instance : Inhabited FileSystem := ⟨empty⟩

def isTop (place : FilePath) : Bool := place.parts.all (· = "..")

def node? (files : FileSystem) (place : FilePath) : Option Node :=
  if isTop place then some .directory else files.nodes.get? place

/-- Follows names from a place on. Each has to be looked up in a directory; what the last one leads
to need not exist. -/
def follow (files : FileSystem) (place : FilePath) : List String → Except Cause FilePath
  | [] => .ok place
  | name :: names =>
    match files.node? place with
    | some .directory =>
      if files.limits.nameBytes < name.utf8ByteSize then .error .nameTooLong
      else files.follow (place.step name) names
    | some (.file _) => .error .notDirectory
    | none => .error .notFound

/-- The place of a path. -/
def locate (files : FileSystem) (path : FilePath) : Except Fault FilePath :=
  if path.holdsNull then .error ⟨.noPath, path.toString⟩
  else if files.limits.pathBytes < path.toString.utf8ByteSize then .error ⟨.nameTooLong, path.toString⟩
  else match files.follow { path with parts := [] } path.parts with
  | .ok place => .ok place
  | .error cause => .error ⟨cause, path.toString⟩

/-- What a path leads to, if anything. A path that cannot be followed leads to nothing, but a name
that is too long is a fault. -/
def probe (files : FileSystem) (path : FilePath) : Except Fault (Option Node) :=
  match files.locate path with
  | .ok place => .ok (files.node? place)
  | .error fault => if fault.cause = .nameTooLong then .error fault else .ok none

def isDirectory (files : FileSystem) (path : FilePath) : Except Fault Bool :=
  (files.probe path).map fun
    | some .directory => true
    | _ => false

def isFile (files : FileSystem) (path : FilePath) : Except Fault Bool :=
  (files.probe path).map fun
    | some (.file _) => true
    | _ => false

def read (files : FileSystem) (path : FilePath) : Except Fault (List UInt8) := do
  match files.node? (← files.locate path) with
  | some (.file bytes) => .ok bytes
  | some .directory => .error ⟨.isDirectory, path.toString⟩
  | none => .error ⟨.notFound, path.toString⟩

/-- Writes a file, a new one or over an old one. Its directory has to exist. -/
def write (files : FileSystem) (path : FilePath) (bytes : List UInt8) :
    Except Fault FileSystem := do
  let place ← files.locate path
  match files.node? place with
  | some .directory => .error ⟨.isDirectory, path.toString⟩
  | _ => .ok { files with nodes := files.nodes.put place (.file bytes) }

/-- Deletes the file of a path text. The text counts as it is written: the empty one leads nowhere,
and one that means a directory leads to no file. -/
def delete (files : FileSystem) (written : String) : Except Fault FileSystem :=
  let path := FilePath.ofString written
  if written.isEmpty then .error ⟨.notFound, written⟩
  else if !path.holdsNull && files.limits.pathBytes < written.utf8ByteSize then .error ⟨.nameTooLong, written⟩
  else
    match files.locate path with
    | .error fault => .error { fault with path := written }
    | .ok place =>
      match files.node? place with
      | some (.file _) =>
        if FilePath.meansDirectory written then .error ⟨.notDirectory, written⟩
        else .ok { files with nodes := files.nodes.erase place }
      | some .directory => .error ⟨.isDirectory, written⟩
      | none => .error ⟨.notFound, written⟩

/-- The order of texts by code points. -/
def textLe (left right : String) : Bool := !decide (right < left)

/-- The names of what is directly in a place, in order. -/
def namesIn (files : FileSystem) (place : FilePath) : List String :=
  ((files.nodes.keys.filter fun path => path.parent = place).map FilePath.name).mergeSort textLe

def names (files : FileSystem) (path : FilePath) : Except Fault (List String) := do
  let place ← files.locate path
  match files.node? place with
  | some .directory => .ok (files.namesIn place)
  | some (.file _) => .error ⟨.notDirectory, path.toString⟩
  | none => .error ⟨.notFound, path.toString⟩

/-- Those of some names in a directory that are files. -/
def onlyFiles (files : FileSystem) (directory : FilePath) :
    List String → Except Fault (List String)
  | [] => .ok []
  | name :: names =>
    match files.isFile (directory.push name) with
    | .error fault => .error fault
    | .ok isFile =>
      (files.onlyFiles directory names).map fun kept => if isFile then name :: kept else kept

/-- The names of the files in a directory, in order. Directories in it do not count. -/
def list (files : FileSystem) (path : FilePath) : Except Fault (List String) :=
  match files.names path with
  | .error fault => .error fault
  | .ok names => files.onlyFiles path names

/-- Makes a directory in one that exists. -/
def makeDirectory (files : FileSystem) (path : FilePath) : Except Fault FileSystem := do
  let place ← files.locate path
  match files.node? place with
  | some _ => .error ⟨.alreadyExists, path.toString⟩
  | none => .ok { files with nodes := files.nodes.put place .directory }

/-- What trying something leaves: the files after it, and a fault if it failed. -/
structure Attempt where
  files : FileSystem
  fault? : Option Fault
deriving DecidableEq, Repr

/-- The attempt that either succeeds or leaves the files as they are. -/
def Attempt.ofResult (files : FileSystem) : Except Fault FileSystem → Attempt
  | .ok changed => ⟨changed, none⟩
  | .error fault => ⟨files, some fault⟩

/-- An attempt after another one that succeeded. What a failed one did before it failed stays. -/
def Attempt.andThen (attempt : Attempt) (next : FileSystem → Attempt) : Attempt :=
  match attempt.fault? with
  | none => next attempt.files
  | some _ => attempt

def ensureDirectory (files : FileSystem) (path : FilePath) : Attempt :=
  match files.makeDirectory path, files.isDirectory path with
  | .ok made, _ => ⟨made, none⟩
  | .error _, .ok true => ⟨files, none⟩
  | .error fault, _ => ⟨files, some fault⟩

/-- Makes a directory unless there is one, and those above it that are missing first. -/
def ensureDirectories (files : FileSystem) (path : FilePath) : Attempt :=
  let attempt := files.ensureDirectory path
  if hMissing : attempt.fault?.map Fault.cause = some .notFound ∧ path.parts ≠ [] then
    have : path.parent.parts.length < path.parts.length := path.parent_length_lt hMissing.2
    (files.ensureDirectories path.parent).andThen fun files => files.ensureDirectory path
  else attempt
termination_by path.parts.length

/-- Whether a place lies below the start of relative paths. -/
def isBelow (place : FilePath) : Bool := place.root.isEmpty && place.parts.head? ≠ some ".."

/-- The paths of all files below the start of relative paths, in the order of their texts. -/
def allFiles (files : FileSystem) : List String :=
  (files.nodes.entries.filterMap fun (path, node) =>
    match node with
    | .file _ => if isBelow path then some path.toString else none
    | .directory => none).mergeSort textLe

end FileSystem

end QuestScript

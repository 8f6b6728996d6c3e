import QuestScript.Text.Lines
/-!
Paths of files: names separated by slashes. Empty names and single points do not count, so
`a//b`, `./a/b` and `a/b/` are one path; two points stay.
-/

namespace QuestScript

/-- A path. The root is empty for a relative path, and a slash or two for an absolute one. -/
structure FilePath where
  root : String
  parts : List String
deriving DecidableEq, Repr, Inhabited

namespace FilePath

open QuestScript.Text

/-- The root of a path text: two slashes if it begins with exactly two, one if with any other
number of them. -/
def rootOf (text : List Char) : String :=
  match (text.takeWhile (· = '/')).length with
  | 0 => ""
  | 2 => "//"
  | _ => "/"

def ofString (text : String) : FilePath :=
  { root := rootOf text.toList
    parts := ((splitAtChar '/' text.toList).filter fun part =>
      !part.isEmpty && part != ['.']).map String.ofList }

/-- Whether a path text means a directory: it ends in a slash or with a single point as a name. -/
def meansDirectory (text : String) : Bool :=
  match text.toList.reverse with
  | '/' :: _ => true
  | '.' :: '/' :: _ => true
  | ['.'] => true
  | _ => false

/-- The text of a path; a point for the path without names. -/
def toString (path : FilePath) : String :=
  let joined := "/".intercalate path.parts
  if path.root.isEmpty && path.parts.isEmpty then "." else path.root ++ joined

def holdsNull (path : FilePath) : Bool :=
  path.parts.any fun part => part.toList.contains (Char.ofNat 0)

/-- The last name of a path; empty if there is none. -/
def name (path : FilePath) : String := (path.parts.getLast?).getD ""

def parent (path : FilePath) : FilePath := { path with parts := path.parts.dropLast }

theorem parent_length_lt (path : FilePath) (hParts : path.parts ≠ []) :
    path.parent.parts.length < path.parts.length := by
  have := List.length_pos_iff.2 hParts
  simp only [parent, List.length_dropLast]
  omega

/-- A path from another one on. An absolute path does not depend on the other. -/
def join (path next : FilePath) : FilePath :=
  if next.root.isEmpty then { path with parts := path.parts ++ next.parts } else next

def child (path : FilePath) (names : String) : FilePath := path.join (ofString names)

/-- A single name in a directory. -/
def push (path : FilePath) (name : String) : FilePath := { path with parts := path.parts ++ [name] }

/-- The directory above. A place above the start of a relative path is reached by two points; above
the root there is only the root. -/
def climb (path : FilePath) : FilePath :=
  match path.parts.getLast? with
  | none => if path.root.isEmpty then path.push ".." else path
  | some last => if last = ".." then path.push ".." else path.parent

/-- The place that a name leads to from a directory. -/
def step (path : FilePath) (name : String) : FilePath :=
  if name = ".." then path.climb else path.push name

/-- Splits a name at its last point. A point at the start or at the end does not count. -/
def splitName (name : List Char) : List Char × List Char :=
  let extension := name.reverse.takeWhile (· ≠ '.')
  match name.reverse.dropWhile (· ≠ '.') with
  | _ :: stem =>
    if stem.isEmpty || extension.isEmpty then (name, []) else (stem.reverse, '.' :: extension.reverse)
  | [] => (name, [])

def stem (path : FilePath) : String := String.ofList (splitName path.name.toList).1

/-- The suffix of the last name, with its point. -/
def suffix (path : FilePath) : String := String.ofList (splitName path.name.toList).2

end FilePath

end QuestScript

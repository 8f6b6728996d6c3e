import QuestScript.Schema.Basic
/-!
Schema documents. Each section describes one call:

    [GiveItem]
    signature = GiveItem(itemId, amount);
    description = Gives the player an amount of an item.

Lines are read without the blanks around them. A line that is neither a header nor a key with its
value is malformed and costs only itself.
-/

namespace QuestScript.Schema.Document

open QuestScript.Text

/-- What a line of a document is. -/
inductive Line where
  | blank
  | header (name : List Char)
  | field (key value : List Char)
  | malformed
deriving DecidableEq, Repr

/-- The name of a section header: what stands between an opening bracket at the start and the last
closing one, if that is not empty. Text after the closing bracket does not count. -/
def headerName? (line : List Char) : Option (List Char) :=
  match line with
  | '[' :: rest =>
    match rest.reverse.dropWhile (· ≠ ']') with
    | _ :: c :: name => some (c :: name).reverse
    | _ => none
  | _ => none

def isDelimiter (c : Char) : Bool := c = '=' || c = ':'

/-- Reads a line that has no blanks at its ends. A semicolon begins a comment. -/
def Line.ofText (line : List Char) : Line :=
  match line with
  | [] => .blank
  | ';' :: _ => .blank
  | _ =>
    match headerName? line with
    | some name => .header name
    | none =>
      match line.dropWhile (fun c => !isDelimiter c) with
      | [] => .malformed
      | _ :: value =>
        let key := trimEnd (line.takeWhile fun c => !isDelimiter c)
        if key.isEmpty then .malformed else .field (key.map Char.toLower) (trim value)

/-- The fields of a section that describe a call. Other fields do not matter. -/
structure Fields where
  signature : Option String
  description : Option String
deriving DecidableEq, Repr

def Fields.empty : Fields := ⟨none, none⟩

/-- Writes a field; the last value of a key counts. -/
def Fields.put (fields : Fields) (key value : List Char) : Fields :=
  if key = "signature".toList then { fields with signature := some (String.ofList value) }
  else if key = "description".toList then { fields with description := some (String.ofList value) }
  else fields

def defaultsName : String := "__defaults__"

/-- The sections read so far. Sections of one name are one section. -/
structure Sections where
  named : Table String Fields
  defaults : Fields
  current : String
  malformed : Bool
deriving DecidableEq, Repr

def Sections.open (sections : Sections) (name : String) : Sections :=
  if name = defaultsName then { sections with current := name }
  else
    { sections with
      named := sections.named.put name ((sections.named.get? name).getD Fields.empty)
      current := name }

def Sections.putField (sections : Sections) (key value : List Char) : Sections :=
  if sections.current = defaultsName then
    { sections with defaults := sections.defaults.put key value }
  else
    let fields := (sections.named.get? sections.current).getD Fields.empty
    { sections with named := sections.named.put sections.current (fields.put key value) }

/-- Reads one more line. -/
def Sections.step (sections : Sections) : Line → Sections
  | .blank => sections
  | .header name => sections.open (String.ofList name)
  | .field key value => sections.putField key value
  | .malformed => { sections with malformed := true }

/-- What reading a document passes over. -/
inductive Notice where
  | entriesBeforeSection
  | malformedLines
deriving DecidableEq, Repr

def Notice.message : Notice → String
  | .entriesBeforeSection => "Ignored schema entries before the first section"
  | .malformedLines => "Skipped malformed schema lines"

/-- Whether a line can be the first one that is read: one between brackets. -/
def isBracketed (line : List Char) : Bool :=
  line.head? = some '[' && line.getLast? = some ']'

/-- Whether a line before the first section is passed over silently. -/
def isSilent (line : List Char) : Bool := line.isEmpty || line.head? = some ';'

/-- The entry of a section with its fields and the defaults; none if a field is missing or empty. -/
def entryOf? (defaults : Fields) (name : String) (fields : Fields) : Option Entry :=
  let signature := ((fields.signature.or defaults.signature).getD "")
  let description := ((fields.description.or defaults.description).getD "")
  if signature.isEmpty || description.isEmpty then none
  else some (Entry.ofSignature name signature description)

/-- The entries that the sections describe, in the order in which the sections first came. -/
def Sections.entries (sections : Sections) : Table String Entry :=
  Table.ofList (sections.named.entries.filterMap fun (name, fields) =>
    (entryOf? sections.defaults name fields).map fun entry => (name, entry))

/-- The sections of the lines from the first bracketed one on. A pair of brackets with nothing in
them opens no section, so as the first line it leaves the rest without one, and nothing is read. -/
def sectionsOf (first : List Char) (rest : List (List Char)) : Sections :=
  let none : Sections := ⟨Table.empty, Fields.empty, defaultsName, false⟩
  match headerName? first with
  | some name => (rest.map Line.ofText).foldl Sections.step (none.open (String.ofList name))
  | Option.none => { none with malformed := true }

/-- The entries of a document, and the notices of what was passed over. -/
def read (text : String) : Table String Entry × List Notice :=
  let lines := (splitLines text.toList).map trim
  let before := lines.takeWhile fun line => !isBracketed line
  match lines.dropWhile fun line => !isBracketed line with
  | [] => (Table.empty, [])
  | first :: rest =>
    let sections := sectionsOf first rest
    (sections.entries,
      (if before.all isSilent then [] else [.entriesBeforeSection]) ++
      (if sections.malformed then [.malformedLines] else []))

end QuestScript.Schema.Document

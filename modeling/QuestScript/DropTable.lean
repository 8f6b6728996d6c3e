import QuestScript.Number.Fractional
import QuestScript.Number.Basic
import QuestScript.Table
import QuestScript.Text.Lines
/-!
Drop tables: what the characters of a quest world leave behind, one line for each of them.

    npc_id = item_id,min,max,percentage, item_id,min,max,percentage, ...

A line that begins with `#` is a comment. An integer with too many digits fails a table as a whole,
wherever it is read or written.
-/

namespace QuestScript

/-- An item that may be dropped: how many, and how often in a hundred. -/
structure Drop where
  item : Int
  least : Int
  most : Int
  percentage : Number
deriving DecidableEq, Repr

/-- The drops of each character, by its number. -/
abbrev DropTable := Table Int (List Drop)

namespace DropTable

open QuestScript.Text

/-! ### Reading -/

/-- The drop of four fields, if each of them begins with a number. -/
def readDrop? (item least most percentage : List Char) : Option Drop := do
  let item ← Integer.leading? item
  let least ← Integer.leading? least
  let most ← Integer.leading? most
  let percentage ← Fractional.leading? percentage
  return ⟨item, least, most, .float percentage⟩

/-- The drops of fields, four to a drop. Fields that give no drop are passed over, and so are those
left over at the end. -/
def readDrops : List (List Char) → List Drop
  | item :: least :: most :: percentage :: rest =>
    (readDrop? item least most percentage).toList ++ readDrops rest
  | _ => []

/-- The first fault of reading fields, four to a drop. Three integers are read of each four, also if
they give no drop. -/
def dropsFault? : List (List Char) → Option Integer.Oversize
  | item :: least :: most :: _ :: rest =>
    ([item, least, most].findSome? Integer.leadingFault?).or (dropsFault? rest)
  | _ => none

/-- The entry of a line: a number and what it drops, on either side of the one equals sign. A line
without a drop gives no entry. -/
def readLine? (line : List Char) : Option (Int × List Drop) :=
  let line := trim line
  if line.isEmpty || line.head? = some '#' then none
  else
    match splitAtChar '=' line with
    | [npc, fields] => do
      let npc ← Integer.leading? (trim npc)
      let drops := readDrops ((splitAtChar ',' (trim fields)).map trim)
      if drops.isEmpty then none else some (npc, drops)
    | _ => none

/-- The first fault of reading a line. The fields are read only if there is a number before them. -/
def lineFault? (line : List Char) : Option Integer.Oversize :=
  let line := trim line
  if line.isEmpty || line.head? = some '#' then none
  else
    match splitAtChar '=' line with
    | [npc, fields] =>
      match Integer.leading? (trim npc) with
      | some _ =>
        (Integer.leadingFault? (trim npc)).or
          (dropsFault? ((splitAtChar ',' (trim fields)).map trim))
      | none => none
    | _ => none

/-- The entries of a text in the order of its lines. -/
def readEntries (text : List Char) : List (Int × List Drop) :=
  (splitAtChar '\n' text).filterMap readLine?

def textFault? (text : List Char) : Option Integer.Oversize :=
  (splitAtChar '\n' text).findSome? lineFault?

/-- The drop table of a text. A later line of a number replaces an earlier one, in its place. -/
def parse (text : String) : Except Integer.Oversize DropTable :=
  Integer.guarded (textFault? text.toList) (Table.ofList (readEntries text.toList))

/-! ### Writing -/

def header : String :=
  "# NPC Drop Table Configuration\n" ++
  "# Format: npc_id = item_id,min,max,percentage, item_id,min,max,percentage, ...\n" ++
  "# Percentage is 0-100 (supports decimals like 0.5)\n" ++
  "\n"

/-- A percentage: without a point if it is an integer. None for an integer beyond the
floating-point range. -/
def printPercentage? : Number → Option String
  | .int n => (Binary64.ofInt? n).map fun _ => toString n
  | .float x =>
    match x.toInt? with
    | some n => some (toString n)
    | none => some x.text

/-- Why a table is not written: a percentage is an integer beyond the floating-point range, or an
integer is not converted. -/
inductive PrintFault where
  | percentage
  | oversize (fault : Integer.Oversize)
deriving DecidableEq, Repr

def PrintFault.message : PrintFault → String
  | .percentage => "int too large to convert to float"
  | .oversize fault => fault.message

/-- Writes the four fields of a drop: three integers, then the percentage. -/
def writeDrop (drop : Drop) : Except PrintFault String :=
  match [drop.item, drop.least, drop.most].findSome? Integer.textFault? with
  | some fault => .error (.oversize fault)
  | none =>
    match printPercentage? drop.percentage with
    | none => .error .percentage
    | some percentage =>
      .ok (",".intercalate
        [toString drop.item, toString drop.least, toString drop.most, percentage])

/-- Writes the line of an entry. The number at its beginning is converted last. -/
def writeLine (entry : Int × List Drop) : Except PrintFault String := do
  let drops ← entry.2.mapM writeDrop
  (Integer.guarded (Integer.textFault? entry.1)
    (toString entry.1 ++ " = " ++ ", ".intercalate drops ++ "\n")).mapError PrintFault.oversize

/-- The entries with drops, by increasing number. -/
def sortedEntries (table : DropTable) : List (Int × List Drop) :=
  (table.entries.filter fun entry => !entry.2.isEmpty).mergeSort fun left right =>
    decide (left.1 ≤ right.1)

/-- Writes a table: the header, and a line for each entry with drops, by increasing number. -/
def write (table : DropTable) : Except PrintFault String :=
  (table.sortedEntries.mapM writeLine).map fun lines => header ++ String.join lines

end DropTable

end QuestScript

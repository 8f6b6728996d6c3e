import QuestScript.Json.Basic
/-!
Reading document values from text. A fault is reported where it is met, with its line and column.
Besides the standard grammar, the words for the floating-point values that are no number or
infinite are read, and of two members with one key the later value stands in the earlier place.
-/

namespace QuestScript.Json

/-- What is wrong with a text. -/
inductive Cause where
  | expectedValue
  | expectedName
  | expectedColon
  | expectedComma
  | unterminated
  | controlCharacter
  | unknownEscape
  | hexEscape
  | extraText
  | byteOrderMark
  | deepArray
  | deepObject
  | oversize (fault : Integer.Oversize)
deriving DecidableEq, Repr

def Cause.message : Cause → String
  | .expectedValue => "Expecting value"
  | .expectedName => "Expecting property name enclosed in double quotes"
  | .expectedColon => "Expecting ':' delimiter"
  | .expectedComma => "Expecting ',' delimiter"
  | .unterminated => "Unterminated string starting at"
  | .controlCharacter => "Invalid control character at"
  | .unknownEscape => "Invalid \\escape"
  | .hexEscape => "Invalid \\uXXXX escape"
  | .extraText => "Extra data"
  | .byteOrderMark => "Unexpected UTF-8 BOM (decode using utf-8-sig)"
  | .deepArray => "maximum recursion depth exceeded while decoding a JSON array from a unicode string"
  | .deepObject =>
    "maximum recursion depth exceeded while decoding a JSON object from a unicode string"
  | .oversize fault => fault.message

/-- Whether a cause is that values are nested too deeply. -/
def Cause.isDepth : Cause → Bool
  | .deepArray | .deepObject => true
  | _ => false

/-- Whether a cause has a place in the text. That values are nested too deeply has none, and neither has
an integer that is not converted. -/
def Cause.hasPlace : Cause → Bool
  | .deepArray | .deepObject | .oversize _ => false
  | _ => true

/-- A cause with the number of characters before its place, and the line and column of that. -/
structure Fault where
  cause : Cause
  offset : Nat
  line : Nat
  column : Nat
deriving DecidableEq, Repr

/-- The wording of a fault. It names the place, if there is one. -/
def Fault.message (fault : Fault) : String :=
  if !fault.cause.hasPlace then fault.cause.message
  else fault.cause.message ++ ": line " ++ toString fault.line ++ " column " ++ toString fault.column ++
    " (char " ++ toString fault.offset ++ ")"

/-- The fault at an offset of a text. Lines end at line feeds. -/
def Fault.at (cause : Cause) (text : List Char) (offset : Nat) : Fault :=
  let before := text.take offset
  { cause
    offset
    line := before.count '\n' + 1
    column := (before.reverse.takeWhile (· ≠ '\n')).length + 1 }

/-- What reading a part gives: a value and the characters after it, or a cause and how many
characters the text still had at its place. -/
abbrev Reading (α : Type) := Except (Cause × Nat) (α × List Char)

def failAt {α : Type} (cause : Cause) (rest : List Char) : Reading α := .error (cause, rest.length)

def isGap (c : Char) : Bool := c = ' ' || c = '\t' || c = '\n' || c = '\r'

def skipGap (cs : List Char) : List Char := cs.dropWhile isGap

def hexValue? (c : Char) : Option Nat :=
  if c.isDigit then some (c.toNat - '0'.toNat)
  else if 'a' ≤ c ∧ c ≤ 'f' then some (c.toNat - 'a'.toNat + 10)
  else if 'A' ≤ c ∧ c ≤ 'F' then some (c.toNat - 'A'.toNat + 10)
  else none

def hexUnit? : List Char → Option Nat
  | [a, b, c, d] => do
    let a ← hexValue? a
    let b ← hexValue? b
    let c ← hexValue? c
    let d ← hexValue? d
    some (((a * 16 + b) * 16 + c) * 16 + d)
  | _ => none

/-- The character of an escape of one letter. -/
def simpleEscape? (c : Char) : Option Char :=
  match c with
  | '"' => some '"'
  | '\\' => some '\\'
  | '/' => some '/'
  | 'b' => some '\x08'
  | 'f' => some '\x0c'
  | 'n' => some '\n'
  | 'r' => some '\r'
  | 't' => some '\t'
  | _ => none

def isHighHalf (unit : Nat) : Bool := 0xD800 ≤ unit && unit ≤ 0xDBFF

def isLowHalf (unit : Nat) : Bool := 0xDC00 ≤ unit && unit ≤ 0xDFFF

/-- The character of a unit that is not half of a pair. A half alone is no character and is read
as the replacement character. -/
def unitChar (unit : Nat) : Char :=
  if isHighHalf unit || isLowHalf unit then Char.ofNat 0xFFFD else Char.ofNat unit

/-- The character of a hexadecimal escape, from its letter on. A digit that is not hexadecimal, or
an escape that ends the text, is a fault at the letter. The second half of a pair is taken when it
follows. -/
def readHex (cs : List Char) : Reading Char :=
  let digits := cs.drop 1
  let rest := digits.drop 4
  if rest.isEmpty then failAt .hexEscape cs
  else match hexUnit? (digits.take 4) with
    | none => failAt .hexEscape cs
    | some unit =>
      if isHighHalf unit && !(rest.drop 6).isEmpty && rest.take 2 == ['\\', 'u'] then
        match hexUnit? ((rest.drop 2).take 4) with
        | none => failAt .hexEscape (rest.drop 1)
        | some unit' =>
          if isLowHalf unit' then
            .ok (Char.ofNat (0x10000 + (unit - 0xD800) * 0x400 + (unit' - 0xDC00)), rest.drop 6)
          else .ok (unitChar unit, rest)
      else .ok (unitChar unit, rest)

/-- The characters of a string after its opening quote, up to and without the closing one. An
unterminated string is reported at the opening quote. -/
def readString (opening : List Char) : (fuel : Nat) → List Char → Reading (List Char)
  | 0, _ => failAt .unterminated opening
  | _, [] => failAt .unterminated opening
  | fuel + 1, c :: rest =>
    if c = '"' then .ok ([], rest)
    else if c = '\\' then
      match rest with
      | [] => failAt .unterminated opening
      | e :: rest' =>
        if e = 'u' then
          match readHex rest with
          | .error fault => .error fault
          | .ok (d, rest'') =>
            match readString opening fuel rest'' with
            | .error fault => .error fault
            | .ok (ds, final) => .ok (d :: ds, final)
        else
          match simpleEscape? e with
          | none => failAt .unknownEscape (c :: rest)
          | some d =>
            match readString opening fuel rest' with
            | .error fault => .error fault
            | .ok (ds, final) => .ok (d :: ds, final)
    else if c.toNat ≤ 0x1F then failAt .controlCharacter (c :: rest)
    else
      match readString opening fuel rest with
      | .error fault => .error fault
      | .ok (ds, final) => .ok (c :: ds, final)

/-- A string from the characters after its opening quote. The fuel is no less than their number. -/
def readText (fuel : Nat) (cs : List Char) : Reading String :=
  (readString ('"' :: cs) fuel cs).map fun (text, rest) => (String.ofList text, rest)

def digitsValue (digits : List Char) : Nat :=
  digits.foldl (fun value c => value * 10 + (c.toNat - '0'.toNat)) 0

/-- Splits off a fraction: a point and the digits after it, of which there must be one. -/
def splitFraction (cs : List Char) : List Char × List Char :=
  match cs with
  | '.' :: rest =>
    let digits := rest.takeWhile Char.isDigit
    if digits.isEmpty then ([], cs) else (digits, rest.dropWhile Char.isDigit)
  | _ => ([], cs)

/-- Splits off an exponent: its letter, a sign, and digits, of which there must be one. -/
def splitExponent (cs : List Char) : Option Int × List Char :=
  match cs with
  | e :: rest =>
    if e = 'e' || e = 'E' then
      let (negative, rest') := match rest with
        | '-' :: rest' => (true, rest')
        | '+' :: rest' => (false, rest')
        | _ => (false, rest)
      let digits := rest'.takeWhile Char.isDigit
      if digits.isEmpty then (none, cs)
      else
        let magnitude : Int := digitsValue digits
        (some (if negative then -magnitude else magnitude), rest'.dropWhile Char.isDigit)
    else (none, cs)
  | [] => (none, cs)

/-- A number: a sign, digits without a needless zero, a fraction, an exponent. Without the last
two it is an integer, which has to have few enough digits. -/
def readNumber (cs : List Char) : Reading Number :=
  let (negative, unsigned) := match cs with
    | '-' :: rest => (true, rest)
    | _ => (false, cs)
  let (whole, rest) := match unsigned with
    | '0' :: rest => (['0'], rest)
    | _ => (unsigned.takeWhile Char.isDigit, unsigned.dropWhile Char.isDigit)
  if whole.isEmpty then failAt .expectedValue cs
  else
    let (fraction, rest) := splitFraction rest
    let (exponent?, rest) := splitExponent rest
    if fraction.isEmpty && exponent?.isNone then
      match Integer.digitsFault? whole with
      | some fault => failAt (.oversize fault) cs
      | none =>
        let magnitude : Int := digitsValue whole
        .ok (.int (if negative then -magnitude else magnitude), rest)
    else
      .ok (.float (Binary64.ofDecimal negative (digitsValue (whole ++ fraction))
        (exponent?.getD 0 - fraction.length)), rest)

def words : List (List Char × Json) :=
  [("null".toList, .null), ("true".toList, .bool true), ("false".toList, .bool false),
   ("NaN".toList, .number (.float .nan)), ("Infinity".toList, .number (.float (.infinite false))),
   ("-Infinity".toList, .number (.float (.infinite true)))]

/-- The word that a text begins with, and what follows it. -/
def readWord? (cs : List Char) : Option (Json × List Char) :=
  words.findSome? fun (word, value) =>
    if word.isPrefixOf cs then some (value, cs.drop word.length) else none

mutual
/-- One value, which may hold brackets in brackets up to a depth. The fuel is more than twice the
number of characters left: a bracket takes one for the array and one for its first item. -/
def readValue : (fuel depth : Nat) → List Char → Reading Json
  | 0, _, cs => failAt .expectedValue cs
  | fuel + 1, depth, cs =>
    match cs with
    | '"' :: rest =>
      match readText fuel rest with
      | .error fault => .error fault
      | .ok (text, rest') => .ok (.string text, rest')
    | '[' :: rest =>
      match depth with
      | 0 => failAt .deepArray cs
      | depth + 1 =>
        match skipGap rest with
        | ']' :: rest' => .ok (.array [], rest')
        | rest' =>
          match readItems fuel depth rest' with
          | .error fault => .error fault
          | .ok (items, final) => .ok (.array items, final)
    | '\x7b' :: rest =>
      match depth with
      | 0 => failAt .deepObject cs
      | depth + 1 =>
        match skipGap rest with
        | '\x7d' :: rest' => .ok (.object [], rest')
        | rest' =>
          match readMembers fuel depth [] rest' with
          | .error fault => .error fault
          | .ok (members, final) => .ok (.object members, final)
    | _ =>
      match readWord? cs with
      | some (value, rest) => .ok (value, rest)
      | none =>
        match readNumber cs with
        | .error fault => .error fault
        | .ok (n, rest) => .ok (.number n, rest)

/-- The items of an array from its first one to its closing bracket. The fuel is one more than a
value needs. -/
def readItems : (fuel depth : Nat) → List Char → Reading (List Json)
  | 0, _, cs => failAt .expectedValue cs
  | fuel + 1, depth, cs =>
    match readValue fuel depth cs with
    | .error fault => .error fault
    | .ok (item, rest) =>
      match skipGap rest with
      | ']' :: rest' => .ok ([item], rest')
      | ',' :: rest' =>
        match readItems fuel depth (skipGap rest') with
        | .error fault => .error fault
        | .ok (items, final) => .ok (item :: items, final)
      | rest' => failAt .expectedComma rest'

/-- The members of an object from the name of the next one to its closing brace, after those read
so far. The fuel is one more than a value needs. -/
def readMembers :
    (fuel depth : Nat) → List (String × Json) → List Char → Reading (List (String × Json))
  | 0, _, _, cs => failAt .expectedName cs
  | fuel + 1, depth, members, cs =>
    match cs with
    | '"' :: rest =>
      match readText fuel rest with
      | .error fault => .error fault
      | .ok (name, rest') =>
        match skipGap rest' with
        | ':' :: rest'' =>
          match readValue fuel depth (skipGap rest'') with
          | .error fault => .error fault
          | .ok (value, rest) =>
            let members := Table.putEntry name value members
            match skipGap rest with
            | '\x7d' :: rest' => .ok (members, rest')
            | ',' :: rest' => readMembers fuel depth members (skipGap rest')
            | rest' => failAt .expectedComma rest'
        | rest'' => failAt .expectedColon rest''
    | _ => failAt .expectedName cs
end

/-- The value that a whole text is, with brackets in brackets up to a depth. -/
def readNested (depth : Nat) (text : List Char) : Except Fault Json :=
  let faultAt (cause : Cause) (remaining : Nat) : Fault :=
    Fault.at cause text (text.length - remaining)
  match text with
  | '\ufeff' :: _ => .error (faultAt .byteOrderMark text.length)
  | _ =>
    match readValue (2 * text.length + 1) depth (skipGap text) with
    | .error (cause, remaining) => .error (faultAt cause remaining)
    | .ok (value, rest) =>
      match skipGap rest with
      | [] => .ok value
      | rest' => .error (faultAt .extraText rest'.length)

def documentDepth : Nat := 985

/-- The document that a whole text is. -/
def read (text : List Char) : Except Fault Json := readNested documentDepth text

end QuestScript.Json

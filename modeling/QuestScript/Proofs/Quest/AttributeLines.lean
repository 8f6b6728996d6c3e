import QuestScript.Proofs.Quest.CallLines
import QuestScript.Proofs.Table
/-!
The lines of attributes, and how they are read again. A key without a value runs into the next line
where it is the keyword of a block and the next line begins with a name.
-/

namespace QuestScript

open Script (Arg Delimited Kind Phrase Piece Position Symbol Token WellLaid layout nextToken place tokensFrom)

variable {schema : Schema} {quest quest' : Quest}

/-- A token that begins a line outside of the blocks, or the end of the script. -/
def BeginsLine (symbol : Symbol) : Prop := symbol.kind = .ident ∨ symbol.kind = .eof

/-- What begins a line is no semicolon, so a line that ends without one is not continued by the
next. -/
theorem BeginsLine.noSemicolon {symbol : Symbol} (hBegins : BeginsLine symbol) :
    NoSemicolon symbol := by
  rcases hBegins with hKind | hKind <;> simp [NoSemicolon, hKind]

/-- Whether a key is the keyword of a block with a name. -/
def isBlockKey (key : String) : Bool :=
  Text.lowered key = "state" || Text.lowered key = "random"

/-! ### One line -/

/-- A line with a value is read as the attribute. -/
theorem Leads.assigned {key : String} (hKey : IsIdentifier key) {symbol : Symbol}
    (hForm : symbol.WellFormed) (hArgument : symbol.isArgument = true) {rest : List Char}
    (hNext : Meets rest BeginsLine)
    (hTakes : ∀ token : Token, token.value = key →
      Takes schema quest none (.attr token (some (⟨symbol, []⟩ : Phrase).arg)) quest' none) :
    Leads schema (.top quest) (key.toList ++ (" = ".toList ++ (symbol.source ++ '\n' :: rest)))
      (.top quest') rest := by
  let pieces : List Piece :=
    [.symbol ⟨.ident, key⟩, space, mark .equals "=", space, .symbol symbol, lineEnd]
  have hLaid : WellLaid rest pieces :=
    ⟨isIdentifier_wellFormed hKey, delimited_space _ _, space_gaps,
      wellLaid_mark ⟨by decide, by decide⟩ (by decide) (by decide)
        ⟨space_gaps, hForm, delimited_lineEnd _ _, lineEnd_gaps, trivial⟩⟩
  have hLayout : key.toList ++ (" = ".toList ++ (symbol.source ++ '\n' :: rest)) =
      layout pieces ++ rest := by
    simp [pieces, Piece.source, Symbol.source, space, mark, lineEnd]
  rw [hLayout]
  refine Leads.of_layout hLaid fun position tokens hTokens => ?_
  have hNoSemicolon : (nextToken tokens).kind ≠ .semi := (hNext _ tokens hTokens).noSemicolon
  refine Stage.resume_event (Script.step_assigned rfl rfl hArgument hNoSemicolon) ?_
  exact hTakes _ rfl

/-- A line with a key alone is read as the attribute, unless it runs into the next line. -/
theorem Leads.bare {key : String} (hKey : IsIdentifier key) {rest : List Char}
    (hNext : Meets rest BeginsLine)
    (hBlock : isBlockKey key = true → Meets rest fun symbol => symbol.kind = .eof)
    (hTakes : ∀ token : Token, token.value = key →
      Takes schema quest none (.attr token none) quest' none) :
    Leads schema (.top quest) (key.toList ++ '\n' :: rest) (.top quest') rest := by
  let pieces : List Piece := [.symbol ⟨.ident, key⟩, lineEnd]
  have hForm := isIdentifier_wellFormed hKey
  have hLaid : WellLaid rest pieces := ⟨hForm, delimited_lineEnd _ _, lineEnd_gaps, trivial⟩
  have hLayout : key.toList ++ '\n' :: rest = layout pieces ++ rest := by
    simp [pieces, Piece.source, Symbol.source, lineEnd]
  rw [hLayout]
  refine Leads.of_layout hLaid fun position tokens hTokens => ?_
  let token : Token := (⟨.ident, key⟩ : Symbol).placedAt position
  have hBegins : (nextToken tokens).kind = .ident ∨ (nextToken tokens).kind = .eof :=
    hNext _ tokens hTokens
  -- What comes next stands on a later line, so it is no value of the key.
  have hLine : (nextToken tokens).kind = .ident → (nextToken tokens).line ≠ token.line := by
    intro hIdent
    cases tokens with
    | nil => cases hIdent
    | cons next more =>
        have hFrom := (Script.tokensFrom_lexed hTokens).begins next (by simp)
        have hAfter : (Position.advance position (layout pieces)).line = position.line + 1 := by
          change (Position.advance position ((⟨.ident, key⟩ : Symbol).source ++ ['\n'])).line = _
          rw [Position.advance_append, Symbol.advance_source hForm]
          rfl
        change next.line ≠ position.line
        rcases hFrom with hLater | ⟨hSame, _⟩ <;> omega
  have hLoose : Script.isLooseValue token (nextToken tokens) = false := by
    simp only [Script.isLooseValue]
    rcases hBegins with hKind | hKind
    · simp [hKind, hLine hKind]
    · simp [hKind]
  have hName : token.isKeyword "state" = true ∨ token.isKeyword "random" = true →
      (nextToken tokens).isName = false := by
    intro hKeyword
    have hBlockKey : isBlockKey key = true := by
      simpa [Token.isKeyword, token, Symbol.placedAt, isBlockKey] using hKeyword
    have hEof : (nextToken tokens).kind = .eof := hBlock hBlockKey _ tokens hTokens
    simp [Token.isName, hEof]
  have hStep : Script.step .top token tokens = .event (.attr token none) .top tokens :=
    Script.step_bare rfl (by rcases hBegins with h | h <;> simp [h]) hName
      (by rcases hBegins with h | h <;> simp [h]) (by rcases hBegins with h | h <;> simp [h]) hLoose
      (by rcases hBegins with h | h <;> simp [h])
  exact Stage.resume_event hStep (hTakes token rfl)

/-! ### First tokens -/

def BeginsWithKey (line : String) : Prop :=
  ∃ key tail, line.toList = key.toList ++ tail ∧ IsIdentifier key ∧
    ∀ rest, Delimited (tail ++ '\n' :: rest)

theorem beginsWithKey_assigned {key : String} (hKey : IsIdentifier key) (value : String) :
    BeginsWithKey (key ++ " = " ++ value) := by
  refine ⟨key, " = ".toList ++ value.toList, by simp, hKey, fun rest => ?_⟩
  exact delimited_space _

theorem beginsWithKey_bare {key : String} (hKey : IsIdentifier key) : BeginsWithKey key :=
  ⟨key, [], by simp, hKey, fun rest => delimited_lineEnd rest⟩

theorem BeginsWithKey.meets {line : String} (hLine : BeginsWithKey line) (rest : List Char) :
    Meets (line.toList ++ '\n' :: rest) BeginsLine := by
  obtain ⟨key, tail, hText, hKey, hDelimited⟩ := hLine
  rw [hText, List.append_assoc]
  exact Meets.symbol (isIdentifier_wellFormed hKey) (hDelimited rest _) (Or.inl rfl)

/-- Lines that begin with keys keep what is behind them from being read as part of the line
before. -/
theorem meets_lines {α : Type} {line : α → String} {items : List α}
    (hKeys : ∀ item ∈ items, BeginsWithKey (line item)) {rest : List Char}
    (hRest : Meets rest BeginsLine) : Meets (textOf (items.map line) ++ rest) BeginsLine := by
  cases items with
  | nil => exact hRest
  | cons item items =>
      rw [List.map_cons, textOf_cons, List.append_assoc]
      exact (hKeys item (by simp)).meets _

/-! ### Fields -/

theorem isIdentifier_keyword_gate (gate : Gate) : IsIdentifier gate.keyword := by
  cases gate <;> decide

theorem isIdentifier_keyword_flag (flag : Flag) : IsIdentifier flag.keyword := by
  cases flag <;> decide

/-- The keyword of a gate names that gate and no other attribute. -/
theorem ofKey?_keyword_gate (gate : Gate) : Attribute.ofKey? gate.keyword = some (.gate gate) := by
  cases gate <;> decide

theorem ofKey?_keyword_flag (flag : Flag) : Attribute.ofKey? flag.keyword = some (.flag flag) := by
  cases flag <;> decide

/-- An attribute without a value has nothing to convert. -/
theorem Draft.attributeFault?_none (key : Token) : Draft.attributeFault? key none = none := by
  unfold Draft.attributeFault?
  split <;> rfl

/-- An integer with few enough digits can be read as the value of any attribute that has a field. -/
theorem Draft.attributeFault?_toString {key : Token} {known : Attribute} {n : Int}
    (hKey : Attribute.ofKey? key.value = some known) (hFits : Integer.fits n = true) :
    Draft.attributeFault? key (some (.number (toString n))) = none := by
  have hRead : Integer.leadingInFault? (toString n) = none :=
    Integer.leadingInFault?_toString_eq_none_iff.2 hFits
  rw [Draft.attributeFault?, hKey]
  cases known with
  | questName => rfl
  | version => exact hRead
  | gate gate => exact hRead
  | flag flag => exact hRead

/-- The line of the name sets the name of the quest. -/
theorem Leads.name {name : String} (hName : Quotable name) {rest : List Char}
    (hNext : Meets rest BeginsLine) :
    Leads schema (.top quest) (("questname = " ++ inQuotes name).toList ++ '\n' :: rest)
      (.top { quest with name := name }) rest := by
  have hText : ("questname = " ++ inQuotes name).toList ++ '\n' :: rest =
      "questname".toList ++ (" = ".toList ++
        ((⟨.string, name⟩ : Symbol).source ++ '\n' :: rest)) := by
    simp [inQuotes, Symbol.source]
  have hForm : (⟨.string, name⟩ : Symbol).WellFormed := ⟨hName, by simp⟩
  rw [hText]
  refine Leads.assigned (by decide) hForm rfl hNext fun token hToken => ?_
  have hKey : Attribute.ofKey? token.value = some .questName := by rw [hToken]; decide
  have takes : Takes schema quest none (.attr token (some (.quoted name)))
      (Draft.setAttribute quest .questName (some (.quoted name))) none :=
    Takes.known hKey (by rw [Draft.attributeFault?, hKey])
  exact takes

/-- The line of the version sets it to the integer. A version that is too long to print has no
such line. -/
theorem Leads.version {version : Number}
    (hVersion : ∃ n : Int, version = .int n ∧ Integer.fits n = true) {rest : List Char}
    (hNext : Meets rest BeginsLine) :
    Leads schema (.top quest) (("version = " ++ version.text).toList ++ '\n' :: rest)
      (.top { quest with version := version }) rest := by
  obtain ⟨n, rfl, hFits⟩ := hVersion
  have hText : ("version = " ++ toString n).toList ++ '\n' :: rest =
      "version".toList ++ (" = ".toList ++
        ((⟨.number, toString n⟩ : Symbol).source ++ '\n' :: rest)) := by
    simp [Symbol.source]
  change Leads schema (.top quest) (("version = " ++ toString n).toList ++ '\n' :: rest) _ rest
  rw [hText]
  have hForm : (⟨.number, toString n⟩ : Symbol).WellFormed :=
    ⟨Integer.admits_toString n, by simp⟩
  refine Leads.assigned (by decide) hForm rfl hNext fun token hToken => ?_
  have hSet : Draft.setAttribute quest .version (some (.number (toString n))) =
      { quest with version := .int n } := by
    simp only [Draft.setAttribute, Option.map_some, Arg.text, Integer.leadingD_toString,
      Option.getD_some]
  rw [← hSet]
  have hKey : Attribute.ofKey? token.value = some .version := by rw [hToken]; decide
  exact Takes.known hKey (Draft.attributeFault?_toString hKey hFits)

def Quest.setGate (quest : Quest) (gate : Gate) (number : Number) : Quest :=
  { quest with gates := quest.gates.set gate (some number) }

/-- The line of a gate sets it to the integer, and every other gate keeps its value. -/
theorem Leads.gate (gate : Gate) {number : Int} (hFits : Integer.fits number = true)
    {rest : List Char} (hNext : Meets rest BeginsLine) :
    Leads schema (.top quest) ((gate.keyword ++ " = " ++ toString number).toList ++ '\n' :: rest)
      (.top (quest.setGate gate (.int number))) rest := by
  have hText : (gate.keyword ++ " = " ++ toString number).toList ++ '\n' :: rest =
      gate.keyword.toList ++ (" = ".toList ++
        ((⟨.number, toString number⟩ : Symbol).source ++ '\n' :: rest)) := by
    simp [Symbol.source]
  rw [hText]
  have hForm : (⟨.number, toString number⟩ : Symbol).WellFormed :=
    ⟨Integer.admits_toString number, by simp⟩
  refine Leads.assigned (isIdentifier_keyword_gate gate) hForm rfl hNext fun token hToken => ?_
  have hSet : Draft.setAttribute quest (.gate gate) (some (.number (toString number))) =
      quest.setGate gate (.int number) := by
    simp only [Draft.setAttribute, Option.map_some, Arg.text, Integer.leadingD_toString,
      Option.getD_some, Quest.setGate]
  rw [← hSet]
  have hKey : Attribute.ofKey? token.value = some (.gate gate) := by
    rw [hToken, ofKey?_keyword_gate]
  exact Takes.known hKey (Draft.attributeFault?_toString hKey hFits)

def Quest.setFlag (quest : Quest) (flag : Flag) : Quest :=
  { quest with flags := quest.flags.set flag true }

theorem isBlockKey_keyword_flag (flag : Flag) : isBlockKey flag.keyword = false := by
  cases flag <;> decide

/-- The line of a flag raises it. Flags have no value, so the line is one word. -/
theorem Leads.flag (flag : Flag) {rest : List Char} (hNext : Meets rest BeginsLine) :
    Leads schema (.top quest) (flag.keyword.toList ++ '\n' :: rest) (.top (quest.setFlag flag))
      rest := by
  refine Leads.bare (isIdentifier_keyword_flag flag) hNext ?_ fun token hToken => ?_
  · intro hKey
    rw [isBlockKey_keyword_flag] at hKey
    cases hKey
  · have takes : Takes schema quest none (.attr token none)
        (Draft.setAttribute quest (.flag flag) none) none :=
      Takes.known (by rw [hToken, ofKey?_keyword_flag]) (Draft.attributeFault?_none token)
    exact takes

/-! ### Other attributes -/

def Quest.putExtra (quest : Quest) (entry : String × Option Param) : Quest :=
  { quest with extra := quest.extra.put entry.1 entry.2 }

/-- The entry of an attribute as it comes back. -/
def normalEntry (entry : String × Option Param) : String × Option Param :=
  (entry.1, entry.2.map Param.normal)

theorem ExtraReadable.beginsWithKey {entry : String × Option Param} (hEntry : ExtraReadable entry) :
    BeginsWithKey (printExtra entry) := by
  obtain ⟨key, value⟩ := entry
  cases value with
  | none => exact beginsWithKey_bare hEntry.key
  | some param => exact beginsWithKey_assigned hEntry.key param.print

/-- The line of an attribute is read as the attribute that comes back, unless its key runs into the
next line. -/
theorem ExtraReadable.leads {entry : String × Option Param} (hEntry : ExtraReadable entry)
    {rest : List Char} (hNext : Meets rest BeginsLine)
    (hKey : entry.2 = none → isBlockKey entry.1 = true →
      Meets rest fun symbol => symbol.kind = .eof) :
    Leads schema (.top quest) ((printExtra entry).toList ++ '\n' :: rest)
      (.top (quest.putExtra (normalEntry entry))) rest := by
  obtain ⟨key, value⟩ := entry
  have hUnknown : ∀ token : Token, token.value = key → Attribute.ofKey? token.value = none := by
    intro token hToken
    rw [hToken]
    exact hEntry.unknown
  cases value with
  | none =>
      refine Leads.bare hEntry.key hNext (hKey rfl) fun token hToken => ?_
      have takes : Takes schema quest none (.attr token none) _ none :=
        Takes.other (hUnknown token hToken) (Draft.attributeFault?_none token)
      rw [hToken] at takes
      exact takes
  | some param =>
      obtain ⟨symbol, hForm, hArgument, hSource, hSniff, hFits⟩ := hEntry.value param rfl
      have hText : (printExtra (key, some param)).toList ++ '\n' :: rest =
          key.toList ++ (" = ".toList ++ (symbol.source ++ '\n' :: rest)) := by
        simp [printExtra, hSource]
      rw [hText]
      refine Leads.assigned hEntry.key hForm hArgument hNext fun token hToken => ?_
      have hRead : Draft.attributeFault? token (some (⟨symbol, []⟩ : Phrase).arg) = none := by
        rw [Draft.attributeFault?, hUnknown token hToken]
        exact hFits
      have takes : Takes schema quest none (.attr token (some (⟨symbol, []⟩ : Phrase).arg)) _ none :=
        Takes.other (hUnknown token hToken) hRead
      rw [hToken, Option.map_some, hSniff] at takes
      exact takes

/-! ### All attributes -/

/-- Lines that are read one by one, each as its own change to the quest. -/
theorem Leads.lines {α : Type} {line : α → String} {change : Quest → α → Quest} {items : List α}
    (hKeys : ∀ item ∈ items, BeginsWithKey (line item))
    (hLine : ∀ item ∈ items, ∀ (quest : Quest) (rest : List Char), Meets rest BeginsLine →
      Leads schema (.top quest) ((line item).toList ++ '\n' :: rest) (.top (change quest item)) rest)
    {rest : List Char} (hNext : Meets rest BeginsLine) :
    Leads schema (.top quest) (textOf (items.map line) ++ rest) (.top (items.foldl change quest))
      rest := by
  induction items generalizing quest with
  | nil => exact Leads.refl
  | cons item items ih =>
      have hRestKeys : ∀ other ∈ items, BeginsWithKey (line other) :=
        fun other hMem => hKeys other (List.mem_cons_of_mem item hMem)
      have hMeets := meets_lines hRestKeys hNext
      rw [List.map_cons, textOf_cons, List.append_assoc]
      have hFirst := hLine item (by simp) quest _ hMeets
      exact hFirst.trans (ih hRestKeys fun other hMem => hLine other (List.mem_cons_of_mem item hMem))

def Gates.set? (gates : Gates) : List (Gate × Number) :=
  Gate.all.filterMap fun gate => (gates.get gate).map fun number => (gate, number)

theorem Gates.get_of_mem_set? {gates : Gates} {gate : Gate} {number : Number}
    (hMem : (gate, number) ∈ gates.set?) : gates.get gate = some number := by
  obtain ⟨other, _, hOther⟩ := List.mem_filterMap.1 hMem
  obtain ⟨found, hFound, hPair⟩ := Option.map_eq_some_iff.1 hOther
  cases hPair
  exact hFound

def printGate (entry : Gate × Number) : String := entry.1.keyword ++ " = " ++ entry.2.text

/-- Every line of a gate begins with the keyword of the gate. -/
theorem beginsWithKey_printGate (entry : Gate × Number) : BeginsWithKey (printGate entry) :=
  beginsWithKey_assigned (isIdentifier_keyword_gate entry.1) entry.2.text

/-- Setting the gates that have a value, one after the other, gives all the gates back. -/
theorem foldl_setGate (gates : Gates) (quest : Quest) :
    gates.set?.foldl (fun quest entry => quest.setGate entry.1 entry.2)
        { quest with gates := Gates.none } = { quest with gates := gates } := by
  obtain ⟨a, b, c, d, e, f⟩ := gates
  cases a <;> cases b <;> cases c <;> cases d <;> cases e <;> cases f <;> rfl

/-- The lines of the gates are read as the gates. -/
theorem Leads.gates {gates : Gates}
    (hNumbers : ∀ gate number, gates.get gate = some number →
      ∃ n : Int, number = .int n ∧ Integer.fits n = true) {rest : List Char} (hNext : Meets rest BeginsLine) :
    Leads schema (.top { quest with gates := Gates.none })
      (textOf (gates.set?.map printGate) ++ rest) (.top { quest with gates := gates }) rest := by
  have hInts : ∀ entry ∈ gates.set?, ∃ n : Int, entry.2 = .int n ∧ Integer.fits n = true := by
    rintro ⟨gate, number⟩ hMem
    exact hNumbers gate number (Gates.get_of_mem_set? hMem)
  rw [← foldl_setGate gates quest]
  refine Leads.lines (fun entry _ => beginsWithKey_printGate entry) ?_ hNext
  intro entry hMem quest rest hRest
  obtain ⟨n, hInt, hFits⟩ := hInts entry hMem
  rw [printGate, hInt]
  exact Leads.gate entry.1 hFits hRest

def Flags.raised (flags : Flags) : List Flag := Flag.all.filter flags.get

theorem beginsWithKey_keyword_flag (flag : Flag) : BeginsWithKey flag.keyword :=
  beginsWithKey_bare (isIdentifier_keyword_flag flag)

/-- Raising the flags that are up, one after the other, gives all the flags back. -/
theorem foldl_setFlag (flags : Flags) (quest : Quest) :
    flags.raised.foldl Quest.setFlag { quest with flags := Flags.none } =
      { quest with flags := flags } := by
  obtain ⟨hidden, hiddenEnd, disabled⟩ := flags
  cases hidden <;> cases hiddenEnd <;> cases disabled <;> rfl

/-- The lines of the flags are read as the flags. -/
theorem Leads.flags (flags : Flags) {rest : List Char} (hNext : Meets rest BeginsLine) :
    Leads schema (.top { quest with flags := Flags.none })
      (textOf (flags.raised.map Flag.keyword) ++ rest) (.top { quest with flags := flags })
      rest := by
  rw [← foldl_setFlag flags quest]
  refine Leads.lines (fun flag _ => beginsWithKey_keyword_flag flag) ?_ hNext
  intro flag _ quest rest hRest
  exact Leads.flag flag hRest

/-- Attributes put one after the other change the table of attributes and nothing else. -/
theorem foldl_putExtra_eq (entries : List (String × Option Param)) (quest : Quest) :
    entries.foldl Quest.putExtra quest =
      { quest with
        extra := entries.foldl (fun table entry => table.put entry.1 entry.2) quest.extra } := by
  induction entries generalizing quest with
  | nil => rfl
  | cons entry entries ih => exact ih (quest.putExtra entry)

/-- Attributes with distinct keys are put one behind the other. -/
theorem foldl_putExtra (entries : List (String × Option Param)) (quest : Quest)
    (hKeys : ((quest.extra.entries ++ entries).map Prod.fst).Nodup) :
    entries.foldl Quest.putExtra quest =
      { quest with extra := ⟨quest.extra.entries ++ entries, hKeys⟩ } := by
  rw [foldl_putExtra_eq, Table.foldl_put entries quest.extra hKeys]

/-- Whether an attribute is the keyword of a block without a value. -/
def isLooseKey (entry : String × Option Param) : Bool := entry.2.isNone && isBlockKey entry.1

/-- No attribute runs into the next line, where that is the rest of a script: a loose key is the
last word. -/
def LooseKeysLast (entries : List (String × Option Param)) (rest : List Char) : Prop :=
  ∀ entry ∈ entries, isLooseKey entry = true →
    entries.getLast? = some entry ∧ Meets rest fun symbol => symbol.kind = .eof

theorem LooseKeysLast.tail {entry : String × Option Param}
    {entries : List (String × Option Param)} {rest : List Char}
    (hLoose : LooseKeysLast (entry :: entries) rest) : LooseKeysLast entries rest := by
  intro other hMem hOther
  obtain ⟨hLast, hEnd⟩ := hLoose other (List.mem_cons_of_mem entry hMem) hOther
  refine ⟨?_, hEnd⟩
  cases entries with
  | nil => cases hMem
  | cons next entries => rwa [List.getLast?_cons_cons] at hLast

/-- A loose key is the last line of all. A key that is not stands before another line, which would
be read as its block. -/
theorem LooseKeysLast.head {entry : String × Option Param}
    {entries : List (String × Option Param)} {rest : List Char}
    (hLoose : LooseKeysLast (entry :: entries) rest) (hFresh : entry.1 ∉ entries.map Prod.fst)
    (hEntry : isLooseKey entry = true) :
    entries = [] ∧ Meets rest fun symbol => symbol.kind = .eof := by
  obtain ⟨hLast, hEnd⟩ := hLoose entry (by simp) hEntry
  refine ⟨?_, hEnd⟩
  cases entries with
  | nil => rfl
  | cons next entries =>
      rw [List.getLast?_cons_cons] at hLast
      exact absurd (List.mem_map_of_mem (List.mem_of_getLast? hLast)) hFresh

/-- The lines of attributes without a field are read one by one. -/
theorem Leads.entries {entries : List (String × Option Param)}
    (hEntries : ∀ entry ∈ entries, ExtraReadable entry) (hKeys : (entries.map Prod.fst).Nodup)
    {rest : List Char} (hNext : Meets rest BeginsLine) (hLoose : LooseKeysLast entries rest) :
    Leads schema (.top quest) (textOf (entries.map printExtra) ++ rest)
      (.top ((entries.map normalEntry).foldl Quest.putExtra quest)) rest := by
  induction entries generalizing quest with
  | nil => exact Leads.refl
  | cons entry entries ih =>
      have hRest : ∀ other ∈ entries, ExtraReadable other :=
        fun other hMem => hEntries other (List.mem_cons_of_mem entry hMem)
      obtain ⟨hFresh, hRestKeys⟩ := List.nodup_cons.1 hKeys
      have hMeets : Meets (textOf (entries.map printExtra) ++ rest) BeginsLine :=
        meets_lines (fun other hMem => (hRest other hMem).beginsWithKey) hNext
      rw [List.map_cons, textOf_cons, List.append_assoc]
      refine Leads.trans ((hEntries entry (by simp)).leads hMeets ?_) (ih hRest hRestKeys hLoose.tail)
      intro hNone hBlock
      have hEntry : isLooseKey entry = true := by rw [isLooseKey, hNone, hBlock]; rfl
      obtain ⟨hLast, hEnd⟩ := hLoose.head hFresh hEntry
      rw [hLast]
      exact hEnd

/-- The lines of the attributes without a field are read as the attributes that come back. -/
theorem Leads.extra {extra : Table String (Option Param)}
    (hEntries : ∀ entry ∈ extra.entries, ExtraReadable entry) {rest : List Char}
    (hNext : Meets rest BeginsLine) (hLoose : LooseKeysLast extra.entries rest) :
    Leads schema (.top { quest with extra := Table.empty })
      (textOf (extra.entries.map printExtra) ++ rest)
      (.top { quest with extra := extra.map (Option.map Param.normal) }) rest := by
  have hKeys : ((extra.entries.map normalEntry).map Prod.fst).Nodup := by
    rw [List.map_map]
    exact extra.distinct
  have hPut := foldl_putExtra (extra.entries.map normalEntry)
    { quest with extra := Table.empty } hKeys
  have hLeads : Leads schema (.top { quest with extra := Table.empty }) _ _ _ :=
    Leads.entries hEntries extra.distinct hNext hLoose
  rw [hPut] at hLeads
  exact hLeads

/-- The lines before the blocks: name and version, then the gates and the flags that are set, then
the other attributes. -/
theorem attributeLines_eq (quest : Quest) : quest.attributeLines =
    ["questname = " ++ inQuotes quest.name, "version = " ++ quest.version.text] ++
      quest.gates.set?.map printGate ++ quest.flags.raised.map Flag.keyword ++
      quest.extra.entries.map printExtra := by
  rw [Quest.attributeLines, Gates.set?, List.map_filterMap, Flags.raised]
  simp only [Option.map_map, Function.comp_def]
  rfl

/-- A quest with the attributes of another one and nothing else. -/
def Quest.attributesOnly (quest : Quest) : Quest :=
  { quest with main := none, states := [], random := [] }

/-- The lines of the attributes are read as the attributes that come back. -/
theorem Quest.Readable.leads_attributes (hQuest : quest.Readable schema) {rest : List Char}
    (hNext : Meets rest BeginsLine) (hLoose : LooseKeysLast quest.extra.entries rest) :
    Leads schema (.top (Quest.blank quest.id)) (textOf quest.attributeLines ++ rest)
      (.top (quest.normal schema).attributesOnly) rest := by
  have hVersionKey : IsIdentifier "version" := by decide
  -- Every line begins with a key, so none of them is taken for a part of the line before it.
  have hExtra := meets_lines (fun entry hMem => (hQuest.extra entry hMem).beginsWithKey) hNext
  have hFlags := meets_lines
    (fun (flag : Flag) (_ : flag ∈ quest.flags.raised) => beginsWithKey_keyword_flag flag) hExtra
  have hGates := meets_lines
    (fun (entry : Gate × Number) (_ : entry ∈ quest.gates.set?) => beginsWithKey_printGate entry)
    hFlags
  have hVersion := (beginsWithKey_assigned hVersionKey quest.version.text).meets
  rw [attributeLines_eq]
  simp only [textOf_append, textOf_cons, List.append_assoc, List.cons_append, List.nil_append]
  refine (Leads.name hQuest.name (hVersion _)).trans ?_
  refine (Leads.version hQuest.version hGates).trans ?_
  let named : Quest :=
    { Quest.blank quest.id with name := quest.name, version := quest.version }
  let gated : Quest := { named with gates := quest.gates }
  let flagged : Quest := { gated with flags := quest.flags }
  have hGated : Leads schema (.top { named with gates := Gates.none }) _ (.top gated) _ :=
    Leads.gates hQuest.gates hFlags
  have hFlagged : Leads schema (.top { gated with flags := Flags.none }) _ (.top flagged) _ :=
    Leads.flags quest.flags hExtra
  have hFinal : Leads schema (.top { flagged with extra := Table.empty }) _ _ _ :=
    Leads.extra hQuest.extra hNext hLoose
  exact hGated.trans (hFlagged.trans hFinal)

end QuestScript

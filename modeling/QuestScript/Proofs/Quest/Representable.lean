import QuestScript.Proofs.Quest.RoundTrip
import QuestScript.Proofs.Quest.Writing
/-!
Quests that a script can represent: conditions on the content of a quest alone, whatever it was read
from, under which its script is read again as its normal quest. Whether it has a script at all is a
matter of its integers: each that is written must have few enough digits.
-/

namespace QuestScript

open Script (Arg Kind Phrase Symbol)

/-- A text that is one number of a script, whether or not it is an integer. -/
def IsNumber (text : String) : Prop := Kind.number.admits text.toList = true

instance (text : String) : Decidable (IsNumber text) := inferInstanceAs (Decidable (_ = true))

/-- An integer, not a floating-point number. -/
def Number.IsInt (number : Number) : Prop := ∃ n : Int, number = .int n

namespace Param

/-- A parameter where no slot is declared: a text that is written with quotes can stand between them,
and one that is written without is one word, or one number that is no integer literal. -/
def Representable : Param → Prop
  | .text value bare =>
    if bare && !value.isEmpty then
      IsIdentifier value ∨ IsNumber value ∧ Integer.isLiteral value.toList = false
    else Quotable value
  | .int _ => True

/-- A parameter in a declared slot: a text in a string slot can stand between quotes. -/
def RepresentableIn : Param → Schema.SlotType → Prop
  | .text value _, .string => Quotable value
  | _, _ => True

def RepresentableList : List Param → List Schema.Slot → Prop
  | [], _ => True
  | param :: params, [] => param.Representable ∧ RepresentableList params []
  | param :: params, slot :: slots =>
    param.RepresentableIn slot.type ∧ RepresentableList params slots

end Param

/-- A block whose calls and description a script can represent. -/
structure State.Representable (schema : Schema) (state : State) : Prop where
  description : Quotable state.description
  actionType : ∀ action ∈ state.actions, IsIdentifier action.type
  allowed : ∀ action ∈ state.actions, schema.AllowsAction action.type
  actionParams : ∀ action ∈ state.actions,
    Param.RepresentableList action.params (schema.actionSlots action.type)
  ruleType : ∀ rule ∈ state.rules, IsIdentifier rule.type
  ruleParams : ∀ rule ∈ state.rules,
    Param.RepresentableList rule.params (schema.ruleSlots rule.type)
  goto : ∀ rule ∈ state.rules, Quotable rule.goto

/-- A quest that a script can represent under a schema. -/
structure Quest.Representable (schema : Schema) (quest : Quest) : Prop where
  name : Quotable quest.name
  version : quest.version.IsInt
  gates : ∀ gate number, quest.gates.get gate = some number → number.IsInt
  keys : ∀ entry ∈ quest.extra.entries, IsIdentifier entry.1
  unknownKeys : ∀ entry ∈ quest.extra.entries, Attribute.ofKey? entry.1 = none
  noBlockKeys : ∀ entry ∈ quest.extra.entries,
    Text.lowered entry.1 ∉ ["main", "state", "random"]
  values : ∀ entry ∈ quest.extra.entries, ∀ param, entry.2 = some param → param.Representable
  blocks : ∀ block ∈ quest.blocks, block.Representable schema
  stateTexts : ∀ state ∈ quest.states, Quotable state.name
  stateNames : quest.stateNames.Nodup
  randomTexts : ∀ block ∈ quest.random, Quotable block.name
  randomNames : (quest.random.map RandomBlock.name).Nodup
  targets : ∀ block ∈ quest.random, ∀ target ∈ block.targets, Quotable target.state
  weights : ∀ block ∈ quest.random, ∀ target ∈ block.targets,
    ∃ weight : Int, target.weight = .int weight ∧ 0 ≤ weight

/-! ### What is representable is readable -/

theorem Integer.quotable_toString (n : Int) : Quotable (toString n) :=
  List.all_eq_true.2 fun _ hMem => Kind.isStringChar_of_admits (Integer.admits_toString n) hMem

namespace Param

/-- A bare parameter is one token. -/
theorem Representable.exists_symbol {value : String} (hText : value.isEmpty = false)
    (hParam : (text value true).Representable) :
    ∃ symbol : Symbol, symbol.WellFormed ∧ symbol.isArgument = true ∧ symbol.value = value ∧
      symbol.source = value.toList ∧
      sniff (⟨symbol, []⟩ : Phrase).arg = .text value true := by
  rw [Representable, hText] at hParam
  rcases hParam with hWord | ⟨hNumber, hLiteral⟩
  · exact ⟨⟨.ident, value⟩, ⟨hWord, by simp⟩, rfl, rfl, rfl, rfl⟩
  · refine ⟨⟨.number, value⟩, ⟨hNumber, by simp⟩, rfl, rfl, rfl, ?_⟩
    change (if Integer.isLiteral value.toList then _ else _) = _
    rw [hLiteral]
    rfl

/-- A parameter that a script can represent and that is not too long to be written is read as
itself. -/
theorem Representable.readable {param : Param} (hParam : param.Representable)
    (hWrite : param.valueFault? = none) : param.Readable := by
  cases param with
  | int n => exact Integer.textFault?_eq_none_iff.1 hWrite
  | text value bare =>
      rw [Readable]
      by_cases hBare : (bare && !value.isEmpty) = true
      · rw [if_pos hBare]
        obtain ⟨rfl, hText⟩ : bare = true ∧ value.isEmpty = false := by simpa using hBare
        obtain ⟨symbol, hForm, hArgument, _, hSource, hSniff⟩ := hParam.exists_symbol hText
        refine ⟨⟨symbol, []⟩, ⟨hForm, hArgument, trivial⟩, ?_, hSniff⟩
        rw [← String.toList_inj, Phrase.text_single, hSource]
      · rw [Representable, if_neg hBare] at hParam
        rwa [if_neg hBare]

theorem Representable.readableAlone {param : Param} (hParam : param.Representable)
    (hWrite : param.valueFault? = none) : param.ReadableAlone := by
  cases param with
  | int n =>
      refine ⟨⟨.number, toString n⟩, ⟨Integer.admits_toString n, by simp⟩, rfl, rfl,
        sniff_toString n, ?_⟩
      exact sniffFault?_toString_eq_none_iff.2 (Integer.textFault?_eq_none_iff.1 hWrite)
  | text value bare =>
      by_cases hBare : (bare && !value.isEmpty) = true
      · obtain ⟨rfl, hText⟩ : bare = true ∧ value.isEmpty = false := by simpa using hBare
        obtain ⟨symbol, hForm, hArgument, _, hSource, hSniff⟩ := hParam.exists_symbol hText
        refine ⟨symbol, hForm, hArgument, ?_, ?_, sniffFault?_of_sniff_eq_text hSniff⟩
        · rw [hSource, print, if_pos hBare]
        · rw [hSniff, normal, hText]
          rfl
      · rw [Representable, if_neg hBare] at hParam
        refine ⟨⟨.string, value⟩, ⟨hParam, by simp⟩, rfl, ?_, ?_, rfl⟩
        · rw [print, if_neg hBare]
          simp [Symbol.source, inQuotes]
        · rw [normal, Bool.eq_false_iff.2 hBare]
          rfl

/-- The same holds in a declared slot. An integer in a slot for text is quoted, and its digits
count too. -/
theorem RepresentableIn.readableIn {param : Param} {type : Schema.SlotType}
    (hParam : param.RepresentableIn type) (hWrite : param.printInFault? type = none) :
    param.ReadableIn type := by
  cases type with
  | integer => exact hWrite
  | string =>
      cases param with
      | text value bare => exact hParam
      | int n => exact Integer.quotable_toString n

/-- The same holds of the parameters of a call, slot by slot. -/
theorem RepresentableList.readableList {params : List Param} {slots : List Schema.Slot}
    (hParams : RepresentableList params slots) (hWrite : listFault? params slots = none) :
    ReadableList params slots := by
  fun_induction RepresentableList params slots with
  | case1 => trivial
  | case2 param params ih =>
      rw [listFault?, Option.or_eq_none_iff] at hWrite
      exact ⟨hParams.1.readable hWrite.1, ih hParams.2 hWrite.2⟩
  | case3 param params slot slots ih =>
      rw [listFault?, Option.or_eq_none_iff] at hWrite
      exact ⟨hParams.1.readableIn hWrite.1, ih hParams.2 hWrite.2⟩

end Param

variable {schema : Schema} {quest : Quest}

/-- A state that can be represented and written is read as itself. -/
theorem State.Representable.readable {state : State} (hState : state.Representable schema)
    (hWrite : state.fault? schema = none) : state.Readable schema := by
  obtain ⟨hActions, hRules⟩ := State.fault?_eq_none_iff.1 hWrite
  refine ⟨hState.description, fun action hMem => ?_, fun rule hMem => ?_⟩
  · exact ⟨hState.actionType action hMem,
      (hState.actionParams action hMem).readableList (hActions action hMem),
      hState.allowed action hMem⟩
  · exact ⟨hState.ruleType rule hMem,
      (hState.ruleParams rule hMem).readableList (hRules rule hMem), hState.goto rule hMem⟩

/-- A quest that a script can represent is read part by part from its script, if it has one. -/
theorem Quest.Representable.readable (hQuest : quest.Representable schema)
    (hWrite : quest.Writable schema) : quest.Readable schema where
  name := hQuest.name
  version := by
    obtain ⟨version, hVersion⟩ := hQuest.version
    have hFits := hWrite.version
    rw [hVersion, Number.textFault?_int] at hFits
    exact ⟨version, hVersion, hFits⟩
  gates := by
    intro gate number hGate
    obtain ⟨n, rfl⟩ := hQuest.gates gate number hGate
    exact ⟨n, rfl, Number.textFault?_int.1 (hWrite.gates gate _ hGate)⟩
  extra := by
    intro entry hMem
    refine ⟨hQuest.keys entry hMem, hQuest.unknownKeys entry hMem, fun param hParam => ?_⟩
    refine (hQuest.values entry hMem param hParam).readableAlone ?_
    obtain ⟨key, value⟩ := entry
    cases hParam
    exact hWrite.extra _ hMem
  blocks := fun block hMem => (hQuest.blocks block hMem).readable
    (State.fault?_eq_none_iff.2 ⟨hWrite.actions block hMem, hWrite.rules block hMem⟩)
  stateTexts := hQuest.stateTexts
  stateNames := hQuest.stateNames
  random := by
    intro block hBlock
    refine ⟨hQuest.randomTexts block hBlock, hQuest.targets block hBlock, fun target hMem => ?_⟩
    obtain ⟨weight, hWeight, hSign⟩ := hQuest.weights block hBlock target hMem
    exact ⟨weight, hWeight, RandomTarget.fits_weight hWeight (hWrite.weights block hBlock target hMem),
      hSign⟩
  randomNames := hQuest.randomNames

/-- Keys without a value are last, since a script can represent no others before a block. -/
theorem Quest.Representable.looseKeysLast (hQuest : quest.Representable schema) :
    quest.LooseKeysLast := by
  intro entry hMem hLoose
  have hKey := hQuest.noBlockKeys entry hMem
  have hBlock : Text.lowered entry.1 = "state" ∨ Text.lowered entry.1 = "random" := by
    simpa [isBlockKey] using (Bool.and_eq_true_iff.1 hLoose).2
  rcases hBlock with hState | hRandom
  · simp [hState] at hKey
  · simp [hRandom] at hKey

/-! ### The round trip -/

/-- A quest that a script can represent is written exactly if no integer of it has too many digits. It
then comes back from its script as its normal quest, which is written as the same script, if no call
without a semicolon stands before one whose name is the word goto; otherwise its script is not even
read. -/
theorem Quest.Representable.parse_print {indent : Int} {pad : String}
    (hQuest : quest.Representable schema) (hPad : padding indent = .ok pad) :
    (quest.Writable schema →
      ∃ text, quest.write schema pad = .ok text ∧
        (quest.SeamFree schema →
          (∃ warnings, Quest.parse schema quest.id text = .ok (quest.normal schema, warnings)) ∧
          (quest.normal schema).write schema pad = .ok text) ∧
        (¬quest.SeamFree schema → ∃ fault, Quest.parse schema quest.id text = .error fault)) ∧
    (¬quest.Writable schema → ∃ fault, quest.write schema pad = .error fault) := by
  constructor
  · intro hWrite
    have hReadable := hQuest.readable hWrite
    have hLoose := hQuest.looseKeysLast
    have hBlanks := IsPad.of_padding hPad
    refine ⟨_, hWrite.write pad, ?_, ?_⟩
    · intro hSeams
      refine ⟨Quest.parse_iff_resumeText.2 (hReadable.resumeText_print hBlanks hLoose hSeams), ?_⟩
      rw [hWrite.normal.write, quest.print_normal schema pad]
    · intro hSeams
      have hNone := hReadable.resumeText_print_eq_none hBlanks hLoose hSeams
      cases hParse : Quest.parse schema quest.id (quest.print schema pad) with
      | error fault => exact ⟨fault, rfl⟩
      | ok result =>
          have hSome := Quest.parse_iff_resumeText.1 ⟨result.2, hParse⟩
          rw [hNone] at hSome
          cases hSome
  · intro hWrite
    rw [← Quest.fault?_eq_none_iff] at hWrite
    obtain ⟨fault, hFault⟩ := Option.ne_none_iff_exists'.1 hWrite
    exact ⟨fault, Integer.guarded_eq_error.2 hFault⟩

/-- A quest with an integer slot that holds text, a bare number and a random block. It is written,
and read back in normal form. -/
theorem Quest.Representable.parse_print_sample :
    let slot : Schema.Slot := ⟨"value", .integer⟩
    let schema : Schema :=
      ⟨Table.empty.put "Bar" ⟨"Bar", "Bar(value)", "", [slot]⟩, Table.empty⟩
    let quest : Quest :=
      { Quest.blank 7 with
        name := "Q"
        extra := (Table.empty.put "note" none).put "rate" (some (.text "2.5" true))
        states := [⟨"A", "first", [⟨"Bar", [.quoted "07x"], ""⟩, ⟨"Say", [.text "hi" true], ""⟩],
          [⟨"Done", [], "no where", ""⟩]⟩]
        random := [⟨"r", [⟨"A", 3⟩]⟩] }
    quest.Representable schema ∧ padding 2 = .ok "  " ∧ quest.Writable schema ∧
      quest.SeamFree schema ∧
      ∃ text, quest.write schema "  " = .ok text ∧
        ∃ warnings, Quest.parse schema 7 text = .ok (quest.normal schema, warnings) := by
  intro slot schema quest
  have hState : State.Representable schema ⟨"A", "first",
      [⟨"Bar", [.quoted "07x"], ""⟩, ⟨"Say", [.text "hi" true], ""⟩],
      [⟨"Done", [], "no where", ""⟩]⟩ := by
    constructor
    · decide +kernel
    · decide +kernel
    · decide +kernel
    · intro action hMem
      rcases List.mem_cons.1 hMem with rfl | hMem
      · exact ⟨trivial, trivial⟩
      · rw [List.mem_singleton.1 hMem]
        exact ⟨Or.inl (by decide +kernel), trivial⟩
    · decide +kernel
    · intro rule hMem
      rw [List.mem_singleton.1 hMem]
      trivial
    · decide +kernel
  have hQuest : quest.Representable schema := by
    constructor
    · decide +kernel
    · exact ⟨1, rfl⟩
    · intro gate number hGate
      cases gate <;> cases hGate
    · decide +kernel
    · decide +kernel
    · decide +kernel
    · intro entry hMem param hParam
      rcases List.mem_cons.1 hMem with rfl | hMem
      · cases hParam
      · rw [List.mem_singleton.1 hMem] at hParam
        cases hParam
        exact Or.inr (by decide +kernel)
    · intro block hMem
      rw [List.mem_singleton.1 hMem]
      exact hState
    · decide +kernel
    · decide +kernel
    · decide +kernel
    · decide +kernel
    · decide +kernel
    · intro block hBlock target hMem
      rw [List.mem_singleton.1 hBlock] at hMem
      rw [List.mem_singleton.1 hMem]
      exact ⟨3, rfl, by decide⟩
  have hPad : padding 2 = .ok "  " := by decide +kernel
  have hSeams : quest.SeamFree schema := by decide +kernel
  have hWrite : quest.Writable schema := Quest.fault?_eq_none_iff.1 (by decide +kernel)
  obtain ⟨text, hText, hRead, _⟩ := (hQuest.parse_print hPad).1 hWrite
  exact ⟨hQuest, hPad, hWrite, hSeams, text, hText, (hRead hSeams).1⟩

/-- A quest that a script can represent is not written where an integer has too many digits. -/
example :
    let quest := { Quest.blank 7 with version := .int (tenPow Integer.maxDigits) }
    quest.write Schema.empty "  " = .error .toText := by
  decide +kernel

/-- A call without a semicolon swallows the name of the next call where that is the word goto. -/
example :
    let slot : Schema.Slot := ⟨"value", .integer⟩
    let schema : Schema :=
      ⟨Table.empty.put "Bar" ⟨"Bar", "Bar(value)", "", [slot]⟩, Table.empty⟩
    let quest : Quest :=
      { Quest.blank 7 with
        states := [⟨"A", "", [⟨"Bar", [.int 1], ""⟩, ⟨"Goto", [.quoted "A"], ""⟩], []⟩] }
    (Quest.parse schema 7 (quest.print schema "  ")).toOption = none := by
  decide +kernel

end QuestScript

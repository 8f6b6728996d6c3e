import QuestScript.Proofs.Document.Parts
import QuestScript.Proofs.Document.Validator
import QuestScript.Proofs.Quest.Refresh
import QuestScript.Proofs.Quest.Same
/-!
Quests as documents. It is said exactly which quests give documents that are accepted; every document
that is accepted can be read; and reading undoes writing. Both ways the texts of the calls are made
anew, so neither a document nor a quest comes of a call with an integer that has too many digits. All
this is so whatever validator says what is accepted.
-/

namespace QuestScript

/-- A quest can be stored: its numbers are integers, those that must not be below zero are not, and
each part that has to have a name has one. -/
structure Quest.Storable (quest : Quest) : Prop where
  id : quest.id.IsNatural
  version : quest.version.IsInteger
  gates : ∀ gate, ∀ number ∈ quest.gates.get gate, number.IsInteger
  main : ∀ main ∈ quest.main, main.Named
  states : ∀ state ∈ quest.states, state.Named
  random : ∀ block ∈ quest.random, block.Storable

/-- The numbers of a quest are integers, however they are written. -/
structure Quest.HasIntegers (quest : Quest) : Prop where
  id : quest.id.IsInteger
  version : quest.version.IsInteger
  gates : ∀ gate, ∀ number ∈ quest.gates.get gate, number.IsInteger
  weights : ∀ block ∈ quest.random, ∀ target ∈ block.targets, target.weight.IsInteger

/-- Neither the number of a quest nor a weight is below zero, and no name and no type of a call is
empty. -/
structure Quest.Complete (quest : Quest) : Prop where
  id : quest.id.isNegative = false
  weights : ∀ block ∈ quest.random, ∀ target ∈ block.targets, target.weight.isNegative = false
  names : ∀ block ∈ quest.blocks, block.name ≠ ""
  actions : ∀ block ∈ quest.blocks, ∀ action ∈ block.actions, action.type ≠ ""
  rules : ∀ block ∈ quest.blocks, ∀ rule ∈ block.rules, rule.type ≠ ""
  random : ∀ block ∈ quest.random, block.name ≠ ""
  targets : ∀ block ∈ quest.random, ∀ target ∈ block.targets, target.state ≠ ""

/-- A quest of integers can be stored if it is complete. -/
theorem Quest.storable_iff_complete {quest : Quest} (hIntegers : quest.HasIntegers) :
    quest.Storable ↔ quest.Complete := by
  constructor
  · intro hStorable
    have hBlocks : ∀ block ∈ quest.blocks, block.Named :=
      forall_mem_blocks.2 ⟨hStorable.main, hStorable.states⟩
    constructor
    · exact hStorable.id.2
    · intro block hBlock target hTarget
      exact ((hStorable.random block hBlock).targets target hTarget).weight.2
    · exact fun block hBlock => (hBlocks block hBlock).name
    · exact fun block hBlock => (hBlocks block hBlock).actions
    · exact fun block hBlock => (hBlocks block hBlock).rules
    · exact fun block hBlock => (hStorable.random block hBlock).name
    · intro block hBlock target hTarget
      exact ((hStorable.random block hBlock).targets target hTarget).state
  · intro hComplete
    have hBlocks : ∀ block ∈ quest.blocks, block.Named := fun block hBlock =>
      ⟨hComplete.names block hBlock, hComplete.actions block hBlock, hComplete.rules block hBlock⟩
    constructor
    · exact ⟨hIntegers.id, hComplete.id⟩
    · exact hIntegers.version
    · exact hIntegers.gates
    · exact (forall_mem_blocks.1 hBlocks).1
    · exact (forall_mem_blocks.1 hBlocks).2
    · intro block hBlock
      apply RandomBlock.Storable.mk (hComplete.random block hBlock)
      intro target hTarget
      exact ⟨hComplete.targets block hBlock target hTarget,
        hIntegers.weights block hBlock target hTarget, hComplete.weights block hBlock target hTarget⟩

namespace Document

/-! ### Attributes -/

/-- What is written of an attribute that quests have no field for. -/
def writeAttribute (entry : String × Option Param) : String × Json :=
  (entry.1, encodeOptional entry.2)

/-- The attribute that a member is read as. -/
def readAttribute? (member : String × Json) : Option (String × Option Param) :=
  (readNullable? readParam? member.2).map fun param => (member.1, param)

/-- An attribute without value is written as null, and read back without value. -/
theorem readAttribute?_writeAttribute (entry : String × Option Param) :
    readAttribute? (writeAttribute entry) = some (entry.1, entry.2.map Param.content) := by
  rw [readAttribute?, writeAttribute, optionalParam_faithful.read_write]
  rfl

theorem extra_faithful :
    Faithful (.dictionary (.scalar [.string, .integer, .null] false false))
      (fun extra : Table String (Option Param) => .object (extra.entries.map writeAttribute))
      readExtra? (fun _ => True) (Table.map (Option.map Param.content)) where
  accepts_iff := by
    intro extra
    simp [Shape.dictionary_accepts_iff, writeAttribute, optionalParam_faithful.accepts_iff]
  read_write := by
    intro extra
    show ((extra.entries.map writeAttribute).mapM readAttribute?).map Table.ofList = _
    rw [mapM_map_eq_some readAttribute?_writeAttribute]
    exact congrArg some (Table.ofList_entries (extra.map (Option.map Param.content)))
  read_accepted := by
    intro document accepts
    obtain ⟨members, rfl, hMembers⟩ := Shape.dictionary_accepts_iff.1 accepts
    have hEntries : ∀ member ∈ members, ∃ entry, readAttribute? member = some entry ∧
        entry.2.map Param.content = entry.2 := by
      intro member hMem
      obtain ⟨param, hRead, _, hContent⟩ :=
        optionalParam_faithful.read_accepted member.2 (hMembers member hMem)
      exact ⟨(member.1, param), by rw [readAttribute?, hRead]; rfl, hContent⟩
    obtain ⟨entries, hReads, hContent⟩ := exists_mapM_eq_some hEntries
    refine ⟨Table.ofList entries, ?_, trivial, ?_⟩
    · show (members.mapM readAttribute?).map Table.ofList = _
      rw [hReads]
      rfl
    · exact Table.map_eq_self fun entry hMem => hContent entry (Table.mem_of_mem_ofList hMem)

/-- The main block may be missing. -/
theorem main_faithful (schema : Schema) :
    Faithful (.anyOf [Shape.state, .scalar [.null] false false])
      (writeNullable (encodeState schema)) (readNullable? readState?)
      (fun main => ∀ state ∈ main, state.Named) (Option.map State.content) := by
  apply (state_faithful schema).nullable
  · intro document
    rw [Shape.anyOf_accepts_iff]
    cases document <;> simp [Shape.scalar_accepts_iff, ValueType.accepts]
  · simp [Shape.state, Shape.record_accepts_iff]
  · intro state hNull
    cases hNull

/-! ### The members of a quest -/

/-- The members of a quest that may be written, each with its value if it has one. -/
def questFields (schema : Schema) (quest : Quest) : List (String × Option Json) :=
  [("id", some (.number quest.id)), ("questName", some (.string quest.name)),
    ("version", some (.number quest.version))] ++
  Gate.all.map (fun gate => (gateMember gate, (quest.gates.get gate).map .number)) ++
  Flag.all.map (fun flag =>
    (flagMember flag, if quest.flags.get flag then some (.bool true) else none)) ++
  [("extraMetadata",
    if quest.extra.isEmpty then none else some (.object (quest.extra.entries.map writeAttribute)))] ++
  [("main", quest.main.map (encodeState schema))] ++
  [("states", some (.array (quest.states.map (encodeState schema)))),
    ("randomBlocks", some (.array (quest.random.map encodeRandom)))]

theorem present_append (fields more : List (String × Option Json)) :
    present (fields ++ more) = present fields ++ present more := List.filterMap_append

theorem encodeGates_eq (gates : Gates) : encodeGates gates =
    present (Gate.all.map fun gate => (gateMember gate, (gates.get gate).map .number)) := by
  simp [encodeGates, present, List.filterMap_map, Function.comp_def, Option.map_map]

theorem encodeFlags_eq (flags : Flags) : encodeFlags flags =
    present (Flag.all.map fun flag =>
      (flagMember flag, if flags.get flag then some (.bool true) else none)) := by
  obtain ⟨hidden, hiddenEnd, disabled⟩ := flags
  cases hidden <;> cases hiddenEnd <;> cases disabled <;> rfl

/-- A document is the list of its fields with the absent ones left out. -/
theorem encode_eq (schema : Schema) (quest : Quest) :
    encode schema quest = .object (present (questFields schema quest)) := by
  have hExtra : encodeExtra quest.extra = present [("extraMetadata",
      if quest.extra.isEmpty then none
      else some (.object (quest.extra.entries.map writeAttribute)))] := by
    unfold encodeExtra
    split <;> rfl
  have hMain : quest.main.toList.map (fun main => ("main", encodeState schema main)) =
      present [("main", quest.main.map (encodeState schema))] := by
    cases quest.main <;> rfl
  rw [encode, encodeGates_eq, encodeFlags_eq, hExtra, hMain]
  simp only [questFields, present_append]
  rfl

theorem questFields_names (schema : Schema) (quest : Quest) :
    (questFields schema quest).map Prod.fst =
      ["id", "questName", "version", "minLevel", "maxLevel", "adminReq", "classReq", "questReq",
        "startNpc", "hidden", "hiddenEnd", "disabled", "extraMetadata", "main", "states",
        "randomBlocks"] := rfl

/-- Each field of a quest is the member of its name. Names are distinct, so no field hides
another. -/
theorem member?_encode {schema : Schema} {quest : Quest} {name : String} {value : Option Json}
    (hField : (name, value) ∈ questFields schema quest) :
    (encode schema quest).member? name = value := by
  have hDistinct : ((questFields schema quest).map Prod.fst).Nodup := by
    rw [questFields_names]
    decide
  rw [encode_eq]
  show (present (questFields schema quest)).lookup name = value
  rw [lookup_present hDistinct, Table.lookup_of_mem hDistinct hField]
  rfl

theorem gateField_mem (schema : Schema) (quest : Quest) (gate : Gate) :
    (gateMember gate, (quest.gates.get gate).map .number) ∈ questFields schema quest := by
  have hGate : gate ∈ Gate.all := by cases gate <;> decide
  simp only [questFields, List.mem_append]
  exact Or.inl (Or.inl (Or.inl (Or.inl (Or.inr (List.mem_map_of_mem hGate)))))

theorem flagField_mem (schema : Schema) (quest : Quest) (flag : Flag) :
    (flagMember flag, if quest.flags.get flag then some (.bool true) else none) ∈
      questFields schema quest := by
  have hFlag : flag ∈ Flag.all := by cases flag <;> decide
  simp only [questFields, List.mem_append]
  exact Or.inl (Or.inl (Or.inl (Or.inr (List.mem_map.2 ⟨flag, hFlag, rfl⟩))))

/-! ### Which quests give accepted documents -/

theorem gateField_accepted_iff (number : Option Number) :
    (∀ found ∈ number.map Json.number, Shape.optionalInteger.Accepts found) ↔
      ∀ n ∈ number, n.IsInteger := by
  cases number with
  | none => simp
  | some number =>
      rw [← optionalInteger_faithful.accepts_iff]
      simp [writeNullable]

theorem flagField_accepted (flag : Bool) :
    ∀ found ∈ (if flag then some (Json.bool true) else none), Shape.truth.Accepts found := by
  cases flag with
  | false => simp
  | true => simp [truth_faithful.accepts_iff]

theorem extraField_accepted (extra : Table String (Option Param)) :
    ∀ found ∈ (if extra.isEmpty then none
        else some (Json.object (extra.entries.map writeAttribute))),
      (Shape.dictionary (.scalar [.string, .integer, .null] false false)).Accepts found := by
  split
  · simp
  · simp [extra_faithful.accepts_iff]

theorem mainField_accepted_iff (schema : Schema) (main : Option State) :
    (∀ found ∈ main.map (encodeState schema),
      (Shape.anyOf [Shape.state, .scalar [.null] false false]).Accepts found) ↔
      ∀ state ∈ main, state.Named := by
  cases main with
  | none => simp
  | some state =>
      rw [← (main_faithful schema).accepts_iff]
      simp [writeNullable]

/-- The document of a quest is accepted if the quest can be stored. -/
theorem encode_accepted_iff (schema : Schema) (quest : Quest) :
    Shape.quest.Accepts (encode schema quest) ↔ quest.Storable := by
  have hRequired : ∀ name ∈ ["questName", "states"],
      ∃ value, (name, some value) ∈ questFields schema quest := by
    simp only [List.forall_mem_cons]
    exact ⟨⟨.string quest.name, by simp [questFields]⟩,
      ⟨.array (quest.states.map (encodeState schema)), by simp [questFields]⟩, nofun⟩
  rw [encode_eq, Shape.quest, Shape.record_accepts_present_iff rfl (by decide) hRequired]
  simp only [questFields, Gate.all, Flag.all, List.map_cons, List.map_nil, List.cons_append,
    List.nil_append, List.forall₂_cons, List.forall₂_nil_left_iff, Option.mem_some_iff, forall_eq',
    natural_faithful.accepts_iff, integer_faithful.accepts_iff, text_faithful.accepts_iff,
    (state_faithful schema).items.accepts_iff, random_faithful.items.accepts_iff,
    gateField_accepted_iff, mainField_accepted_iff]
  -- flags and other attributes are accepted whatever they are; all other members have to fit
  constructor
  · rintro ⟨hId, _, hVersion, hMinLevel, hMaxLevel, hAdmin, hClass, hQuest, hNpc, _, _, _, _, hMain,
      hStates, hRandom, _⟩
    refine ⟨hId, hVersion, ?_, hMain, hStates, hRandom⟩
    intro gate
    cases gate with
    | minLevel => exact hMinLevel
    | maxLevel => exact hMaxLevel
    | needAdmin => exact hAdmin
    | needClass => exact hClass
    | needQuest => exact hQuest
    | startNpc => exact hNpc
  · intro hStorable
    exact ⟨hStorable.id, trivial, hStorable.version, hStorable.gates _, hStorable.gates _,
      hStorable.gates _, hStorable.gates _, hStorable.gates _, hStorable.gates _,
      flagField_accepted _, flagField_accepted _, flagField_accepted _, extraField_accepted _,
      hStorable.main, hStorable.states, hStorable.random, trivial⟩

/-! ### Reading a quest -/

/-- The gates are read one by one, and a quest has no other gate than these. -/
theorem readGates?_eq_some {document : Json} {gates : Gates}
    (hRead : ∀ gate, readGate? document gate = some (gates.get gate)) :
    readGates? document = some gates := by
  simp [readGates?, Gate.all, hRead, Gates.set, Gates.get, Gates.none]

theorem readFlags?_eq_some {document : Json} {flags : Flags}
    (hRead : ∀ flag, readMemberD readBool? false document (flagMember flag) =
      some (flags.get flag)) :
    readFlags? document = some flags := by
  simp [readFlags?, Flag.all, hRead, Flags.set, Flags.get, Flags.none]

section Members

variable {schema : Schema} {quest : Quest} {β : Type} {shape : Shape} {write : β → Json}
  {read : Json → Option β} {Fits : β → Prop} {content : β → β} {name : String}

/-- A member that is written is read as what counts of its value. -/
theorem Faithful.readMember?_encode (faithful : Faithful shape write read Fits content) {value : β}
    (hField : (name, some (write value)) ∈ questFields schema quest) :
    readMember? read (encode schema quest) name = some (content value) := by
  rw [readMember?, member?_encode hField]
  exact faithful.read_write value

/-- A member that is left out is read as its default. -/
theorem Faithful.readMemberD_encode (faithful : Faithful shape write read Fits content)
    {default : β} (value : Option β) (hField : (name, value.map write) ∈ questFields schema quest) :
    readMemberD read default (encode schema quest) name = some ((value.map content).getD default) := by
  rw [readMemberD, member?_encode hField]
  cases value with
  | none => rfl
  | some value => exact faithful.read_write value

end Members

theorem readGate?_encode (schema : Schema) (quest : Quest) (gate : Gate) :
    readGate? (encode schema quest) gate = some (quest.gates.get gate) := by
  rw [readGate?, readMemberD, member?_encode (gateField_mem schema quest gate)]
  cases quest.gates.get gate <;> rfl

theorem readFlag?_encode (schema : Schema) (quest : Quest) (flag : Flag) :
    readMemberD readBool? false (encode schema quest) (flagMember flag) =
      some (quest.flags.get flag) := by
  rw [readMemberD, member?_encode (flagField_mem schema quest flag)]
  cases quest.flags.get flag <;> rfl

theorem readExtra?_encode (schema : Schema) (quest : Quest) :
    readMemberD readExtra? Table.empty (encode schema quest) "extraMetadata" =
      some (quest.extra.map (Option.map Param.content)) := by
  have hField : ("extraMetadata", if quest.extra.isEmpty then none
      else some (Json.object (quest.extra.entries.map writeAttribute))) ∈ questFields schema quest := by
    simp [questFields]
  rw [readMemberD, member?_encode hField]
  by_cases hEmpty : quest.extra.isEmpty
  · -- an empty table is left out, and is what is read in place of one
    rw [if_pos hEmpty, Table.eq_empty_of_isEmpty hEmpty]
    rfl
  · rw [if_neg hEmpty]
    exact extra_faithful.read_write quest.extra

theorem readMain?_encode (schema : Schema) (quest : Quest) :
    readMemberD (readNullable? readState?) none (encode schema quest) "main" =
      some (quest.main.map State.content) := by
  have hField : ("main", quest.main.map (encodeState schema)) ∈ questFields schema quest := by
    simp [questFields]
  rw [readMemberD, member?_encode hField]
  cases quest.main with
  | none => rfl
  | some main => exact (main_faithful schema).read_write (some main)

/-- What is read of the document of a quest is what counts of the quest. -/
theorem readQuest?_encode (schema : Schema) (quest : Quest) :
    readQuest? (encode schema quest) = some quest.content := by
  have hId : readMemberD readNumber? 0 (encode schema quest) "id" = some quest.id :=
    natural_faithful.readMemberD_encode (some quest.id) (by simp [questFields])
  have hName : readMember? readText? (encode schema quest) "questName" = some quest.name :=
    text_faithful.readMember?_encode (by simp [questFields])
  have hVersion : readMemberD readNumber? 1 (encode schema quest) "version" = some quest.version :=
    integer_faithful.readMemberD_encode (some quest.version) (by simp [questFields])
  have hStates : readMember? (readItems? readState?) (encode schema quest) "states" =
      some (quest.states.map State.content) :=
    (state_faithful schema).items.readMember?_encode (by simp [questFields])
  have hRandom : readMemberD (readItems? readRandom?) [] (encode schema quest) "randomBlocks" =
      some (quest.random.map id) :=
    random_faithful.items.readMemberD_encode (some quest.random) (by simp [questFields])
  rw [readQuest?, hId, hName, hVersion, readGates?_eq_some (readGate?_encode schema quest),
    readFlags?_eq_some (readFlag?_encode schema quest), readExtra?_encode, readMain?_encode, hStates,
    hRandom, List.map_id]
  rfl

/-- Gates whose members are absent or integers are read, and are integers or absent again. -/
theorem exists_readGates?_eq_some {document : Json}
    (hRead : ∀ gate, ∃ number, readGate? document gate = some number ∧ ∀ n ∈ number, n.IsInteger) :
    ∃ gates : Gates, readGates? document = some gates ∧
      ∀ gate, ∀ n ∈ gates.get gate, n.IsInteger := by
  choose number hNumber hInteger using hRead
  obtain ⟨gates, hGates⟩ : ∃ gates : Gates, ∀ gate, gates.get gate = number gate := by
    apply Exists.intro ⟨number .minLevel, number .maxLevel, number .needAdmin, number .needClass,
      number .needQuest, number .startNpc⟩
    intro gate
    cases gate <;> rfl
  refine ⟨gates, ?_, ?_⟩
  · apply readGates?_eq_some
    intro gate
    rw [hNumber, hGates]
  · intro gate
    rw [hGates]
    exact hInteger gate

theorem exists_readFlags?_eq_some {document : Json}
    (hRead : ∀ flag, ∃ value, readMemberD readBool? false document (flagMember flag) = some value) :
    ∃ flags, readFlags? document = some flags := by
  choose value hValue using hRead
  apply Exists.intro ⟨value .hidden, value .hiddenEnd, value .disabled⟩
  apply readFlags?_eq_some
  intro flag
  rw [hValue]
  cases flag <;> rfl

/-- A document that is accepted is read as a quest that can be stored. -/
theorem exists_readQuest?_eq_some {document : Json} (schema : Schema)
    (accepts : Shape.quest.Accepts document) :
    ∃ quest, readQuest? document = some quest ∧ quest.Storable ∧ quest.content = quest := by
  obtain ⟨id, hId, hNatural, _⟩ := natural_faithful.read_optional "id" 0 accepts (by simp)
    ⟨rfl, rfl⟩ rfl
  obtain ⟨name, hName, _⟩ := text_faithful.read_required "questName" accepts (by simp) (by simp)
  obtain ⟨version, hVersion, hInteger, _⟩ := integer_faithful.read_optional "version" 1 accepts
    (by simp) rfl rfl
  obtain ⟨gates, hGates, hGate⟩ := exists_readGates?_eq_some fun gate => by
    obtain ⟨number, hNumber, hFits, _⟩ := optionalInteger_faithful.read_optional (gateMember gate)
      none accepts (by cases gate <;> simp [gateMember]) nofun rfl
    exact ⟨number, hNumber, hFits⟩
  obtain ⟨flags, hFlags⟩ := exists_readFlags?_eq_some fun flag => by
    obtain ⟨value, hValue, _⟩ := truth_faithful.read_optional (flagMember flag) false accepts
      (by cases flag <;> simp [flagMember]) trivial rfl
    exact ⟨value, hValue⟩
  obtain ⟨extra, hExtra, _, hEntries⟩ := extra_faithful.read_optional "extraMetadata" Table.empty
    accepts (by simp) trivial rfl
  obtain ⟨main, hMain, hMainNamed, hMainContent⟩ := (main_faithful schema).read_optional "main" none
    accepts (by simp) nofun rfl
  obtain ⟨states, hStates, hNamed, hContent⟩ := (state_faithful schema).items.read_required "states"
    accepts (by simp) (by simp)
  obtain ⟨random, hRandom, hStorable, _⟩ := random_faithful.items.read_optional "randomBlocks" []
    accepts (by simp) nofun rfl
  refine ⟨⟨id, name, version, gates, flags, extra, main, states, random⟩, ?_,
    ⟨hNatural, hInteger, hGate, hMainNamed, hNamed, hStorable⟩, ?_⟩
  · rw [readQuest?, hId, hName, hVersion, hGates, hFlags, hExtra, hMain, hStates, hRandom]
    rfl
  · rw [Quest.content, hEntries, hMainContent, hContent]

/-- Quests as documents are written and read faithfully. -/
theorem quest_faithful (schema : Schema) :
    Faithful Shape.quest (encode schema) readQuest? Quest.Storable Quest.content where
  accepts_iff := encode_accepted_iff schema
  read_write := readQuest?_encode schema
  read_accepted := fun _ accepts => exists_readQuest?_eq_some schema accepts

/-! ### Whole documents -/

section

variable {validator : Validator}

/-- A document that is accepted gives the quest that is read from it, if its calls can be written. -/
theorem decodeWith_accepted (lawful : validator.Lawful) (schema : Schema) {document : Json}
    {quest : Quest} (accepts : Shape.quest.Accepts document)
    (hRead : readQuest? document = some quest) :
    decodeWith validator schema none document =
      (Integer.guarded (quest.callFault? schema) (quest.refresh schema)).mapError
        Refusal.oversize := by
  rw [decodeWith, (lawful.validate_eq_none_iff document).2 accepts]
  dsimp only
  rw [readAccepted, hRead]
  rfl

/-- A document that the validator finds something wrong with is refused for that. -/
theorem decodeWith_invalid (schema : Schema) {document : Json} {violation : Violation}
    (hFound : validator.validate document = .ok (some violation)) :
    decodeWith validator schema none document = .error (.invalid violation) := by
  rw [decodeWith, hFound]

/-- A document is written when no call has an integer too long to be printed, and then it is the
encoding. -/
theorem write_eq_ok_iff {schema : Schema} {quest : Quest} {document : Json} :
    write schema quest = .ok document ↔
      quest.callFault? schema = none ∧ encode schema quest = document := Integer.guarded_eq_ok

/-- The document of a quest that can be stored gives the quest again, with its text made anew. -/
theorem decodeWith_write (lawful : validator.Lawful) {schema : Schema} {quest : Quest}
    {document : Json} (hStorable : quest.Storable) (hWrite : write schema quest = .ok document) :
    decodeWith validator schema none document = .ok (quest.content.refresh schema) := by
  obtain ⟨hFits, rfl⟩ := write_eq_ok_iff.1 hWrite
  rw [decodeWith_accepted lawful schema ((quest_faithful schema).accepts_iff quest |>.2 hStorable)
    ((quest_faithful schema).read_write quest), Quest.callFault?_content, hFits]
  rfl

/-- The spelling kept in a document is computed from the parameters, so refreshing it changes no
document. -/
theorem encodeState_refresh (schema : Schema) (state : State) :
    encodeState schema (state.refresh schema) = encodeState schema state := by
  simp only [encodeState, State.refresh, List.map_map]
  rfl

/-- The cached text of a quest does not count in its document. -/
theorem encode_refresh (schema : Schema) (quest : Quest) :
    encode schema (quest.refresh schema) = encode schema quest := by
  have hStates : encodeState schema ∘ State.refresh schema = encodeState schema :=
    funext (encodeState_refresh schema)
  simp only [encode_eq, questFields, Quest.refresh, Option.map_map, List.map_map, hStates]

/-- A quest and its refreshed copy have the same document, and fail on the same integer when one
is too long. -/
theorem write_refresh (schema : Schema) (quest : Quest) :
    write schema (quest.refresh schema) = write schema quest := by
  rw [write, write, encode_refresh, Quest.callFault?_refresh]

/-- A quest that can be stored comes back as an equal one. -/
theorem exists_decodeWith_write_same (lawful : validator.Lawful) {schema : Schema} {quest : Quest}
    {document : Json} (hStorable : quest.Storable) (hWrite : write schema quest = .ok document) :
    ∃ again, decodeWith validator schema none document = .ok again ∧ again.same quest = true := by
  refine ⟨_, decodeWith_write lawful hStorable hWrite, ?_⟩
  apply Quest.same_of_content_eq
  rw [Quest.content_refresh, Quest.content_content]

/-- A quest has a document just if all of its calls can be written. The document of a quest of integers
is accepted exactly if the quest is complete, and then the quest comes back as an equal one; and unless
an integer of it has too many digits to be shown, it is told what is wrong with one that is not. -/
theorem reports_write_iff_complete (lawful : validator.Lawful) (schema : Schema) {quest : Quest}
    (hIntegers : quest.HasIntegers) :
    ((∃ document, write schema quest = .ok document) ↔
      ∀ block ∈ quest.blocks, (∀ action ∈ block.actions, action.fault? schema = none) ∧
        ∀ rule ∈ block.rules, rule.fault? schema = none) ∧
    ∀ document, write schema quest = .ok document →
      (validator.reports document = .ok [] ↔ quest.Complete) ∧
      (isShowable document = true → ∃ reports, validator.reports document = .ok reports) ∧
      (validator.reports document = .ok [] →
        ∃ again, decodeWith validator schema none document = .ok again ∧
          again.same quest = true) := by
  refine ⟨?_, fun document hWrite => ?_⟩
  · rw [write, Integer.exists_guarded_eq_ok, Quest.callFault?_eq_none_iff]
    exact forall₂_congr fun block _ => State.fault?_eq_none_iff
  · have hAccepts : validator.reports document = .ok [] ↔ quest.Storable := by
      rw [lawful.reports_eq_nil_iff, ← (write_eq_ok_iff.1 hWrite).2,
        (quest_faithful schema).accepts_iff]
    rw [hAccepts]
    refine ⟨Quest.storable_iff_complete hIntegers, fun hShow => ?_,
      fun hStorable => exists_decodeWith_write_same lawful hStorable hWrite⟩
    obtain ⟨errors, hErrors⟩ := lawful.errors_answer hShow
    exact ⟨_, by rw [Validator.reports, hErrors]; rfl⟩

/-- A complete quest with a gate, an attribute without value, a main block and a random block is
written, reported nowhere, and read back the same. -/
theorem reports_write_iff_complete_sample :
    let quest : Quest :=
      { Quest.blank 7 with
        gates := Gates.none.set .minLevel (some 3)
        extra := (Table.empty.put "note" none).put "mood" (some (.text "calm" true))
        main := some ⟨"Main", "", [⟨"Say", [.text "hi" true, .int 2], "old"⟩], []⟩
        states := [⟨"A", "first", [], [⟨"Done", [], "A", ""⟩]⟩]
        random := [⟨"r", [⟨"A", 3⟩]⟩] }
    Validator.ofFormat.Lawful ∧ quest.HasIntegers ∧ quest.Complete ∧
      ∃ document, write Schema.empty quest = .ok document ∧
        Validator.ofFormat.reports document = .ok [] ∧
        ∃ again, decodeWith .ofFormat Schema.empty none document = .ok again ∧
          again.same quest = true := by
  intro quest
  have hIntegers : quest.HasIntegers := by
    refine ⟨rfl, rfl, ?_, by simp [quest, Number.IsInteger, Number.toInt?]⟩
    intro gate
    cases gate <;> simp [quest, Gates.set, Gates.get, Gates.none, Number.IsInteger, Number.toInt?]
  have hComplete : quest.Complete := by
    constructor <;> simp [quest, Quest.blank, Quest.blocks] <;> rfl
  have hFits : quest.callFault? Schema.empty = none := by decide +kernel
  obtain ⟨hWrite, hDocument⟩ :=
    reports_write_iff_complete Validator.ofFormat_lawful Schema.empty hIntegers
  obtain ⟨document, hDocumentOf⟩ := hWrite.2 fun block hMem =>
    State.fault?_eq_none_iff.1 (Quest.callFault?_eq_none_iff.1 hFits block hMem)
  obtain ⟨hIff, -, hSame⟩ := hDocument document hDocumentOf
  exact ⟨Validator.ofFormat_lawful, hIntegers, hComplete, document, hDocumentOf, hIff.2 hComplete,
    hSame (hIff.2 hComplete)⟩

/-- A document that the validator finds something wrong with is refused for that. One that it accepts
is read as a quest. If the calls of the quest can be written, that is what comes of the document, and
the quest has a document of its own, which is accepted and gives the same quest; else an integer with
too many digits is the one reason why nothing comes of it. The validator itself fails on no document
that is accepted, and only where an integer cannot be shown. -/
theorem decodeWith_refused_or_stable (lawful : validator.Lawful) (schema : Schema)
    (document : Json) :
    (∀ fault, validator.validate document = .error fault →
      decodeWith validator schema none document = .error (.oversize fault) ∧
        isShowable document = false ∧ Shape.quest.accepts document = false) ∧
    (∀ violation, validator.validate document = .ok (some violation) →
      decodeWith validator schema none document = .error (.invalid violation) ∧
        Shape.quest.accepts document = false) ∧
    (validator.validate document = .ok none →
      Shape.quest.accepts document = true ∧ ∃ quest, readQuest? document = some quest ∧
        (∀ fault, quest.callFault? schema = some fault →
          decodeWith validator schema none document = .error (.oversize fault)) ∧
        (quest.callFault? schema = none →
          decodeWith validator schema none document = .ok (quest.refresh schema) ∧
            ∃ written, write schema (quest.refresh schema) = .ok written ∧
              validator.reports written = .ok [] ∧
              decodeWith validator schema none written = .ok (quest.refresh schema))) := by
  have hAccepted := lawful.validate_eq_none document
  refine ⟨fun fault hFault => ⟨?_, ?_, ?_⟩, fun violation hFound => ⟨?_, ?_⟩, fun hNone => ?_⟩
  · rw [decodeWith, hFault]
  · rw [Bool.eq_false_iff]
    intro hShow
    obtain ⟨found, hFound⟩ := lawful.validate_answers hShow
    rw [hFault] at hFound
    cases hFound
  · rw [hFault] at hAccepted
    exact Bool.eq_false_iff.2 (mt hAccepted.2 nofun)
  · exact decodeWith_invalid schema hFound
  · rw [hFound] at hAccepted
    exact Bool.eq_false_iff.2 (mt hAccepted.2 nofun)
  · have accepts := (lawful.validate_eq_none_iff document).1 hNone
    obtain ⟨quest, hRead, hStorable, hContent⟩ :=
      (quest_faithful schema).read_accepted document accepts
    have hDecode := decodeWith_accepted lawful schema accepts hRead
    refine ⟨hAccepted.1 hNone, quest, hRead, fun fault hFault => ?_, fun hFits => ?_⟩
    · rwa [hFault] at hDecode
    · rw [hFits] at hDecode
      have hWrite : write schema quest = .ok (encode schema quest) :=
        write_eq_ok_iff.2 ⟨hFits, rfl⟩
      refine ⟨hDecode, _, (write_refresh schema quest).trans hWrite, ?_, ?_⟩
      · rw [lawful.reports_eq_nil_iff]
        exact ((quest_faithful schema).accepts_iff quest).2 hStorable
      · -- all of what was read counts, so nothing is lost when it is written
        rw [decodeWith_write lawful hStorable hWrite, hContent]

/-- A document whose numbers are floating-point numbers gives a quest, one with an empty name does not,
and neither does one with a text in an integer slot that begins with too many digits. -/
theorem decodeWith_refused_or_stable_sample :
    let two : Number := .float (.finite false (twoPow 52) (-51))
    let say (param : Json) : Json := .object [("questName", .string "Q"), ("version", .number two),
      ("states", .array [.object [("name", .string "A"), ("actions", .array
        [.object [("type", .string "Say"), ("params", .array [param])]])]])]
    let nameless : Json := .object [("questName", .string "Q"),
      ("states", .array [.object [("name", .string "")]])]
    let schema : Schema :=
      ⟨Table.ofList [("Say", ⟨"Say", "Say(count)", "", [⟨"count", .integer⟩]⟩)], Table.empty⟩
    let quest (param : Param) (text : String) : Quest :=
      { Quest.blank 0 with
        name := "Q", version := two, states := [⟨"A", "", [⟨"Say", [param], text⟩], []⟩] }
    Validator.ofFormat.Lawful ∧
      decodeWith .ofFormat schema none (say (.number two)) = .ok (quest (.int 2) "Say(2)") ∧
      (∃ written, write schema (quest (.int 2) "Say(2)") = .ok written ∧
        Validator.ofFormat.reports written = .ok [] ∧
        decodeWith .ofFormat schema none written = .ok (quest (.int 2) "Say(2)")) ∧
      (∃ violation, decodeWith .ofFormat schema none nameless = .error (.invalid violation)) ∧
      ∃ fault, decodeWith .ofFormat schema none (encode schema
        (quest (.quoted (toString (tenPow Integer.maxDigits : Int))) "")) =
          .error (.oversize fault) := by
  intro two say nameless schema quest
  have hNumber : Validator.ofFormat.validate (say (.number two)) = .ok none := by decide +kernel
  have hNumberRead : readQuest? (say (.number two)) = some (quest (.int 2) "") := by decide +kernel
  have hNumberFits : (quest (.int 2) "").callFault? schema = none := by decide +kernel
  have hRefresh : (quest (.int 2) "").refresh schema = quest (.int 2) "Say(2)" := by decide +kernel
  obtain ⟨-, -, hStable⟩ :=
    decodeWith_refused_or_stable Validator.ofFormat_lawful schema (say (.number two))
  obtain ⟨-, read, hRead, -, hFinal⟩ := hStable hNumber
  obtain rfl := Option.some.inj (hNumberRead.symm.trans hRead)
  rw [hRefresh] at hFinal
  obtain ⟨hDecode, hWritten⟩ := hFinal hNumberFits
  refine ⟨Validator.ofFormat_lawful, hDecode, hWritten, ?_, ?_⟩
  · have hFound : Validator.ofFormat.validate nameless = .ok (some
        ⟨[.member "states", .item 0, .member "name"], "'' should be non-empty"⟩) := by decide +kernel
    obtain ⟨-, hRefused, -⟩ :=
      decodeWith_refused_or_stable Validator.ofFormat_lawful schema nameless
    exact ⟨_, (hRefused _ hFound).1⟩
  · have hNoText := mt Integer.leadingInFault?_toString_eq_none_iff.1
      (Bool.eq_false_iff.1 Integer.fits_tenPow_maxDigits)
    generalize toString (tenPow Integer.maxDigits : Int) = long at hNoText ⊢
    obtain ⟨fault, hFault⟩ := Option.ne_none_iff_exists'.1 hNoText
    have hTwo : two.toInt?.isSome = true := by decide +kernel
    have hStorable : (quest (.quoted long) "").Storable :=
      ⟨⟨rfl, rfl⟩, hTwo, fun gate => by cases gate <;> exact nofun, nofun,
        List.forall_mem_singleton.2 ⟨by simp, by simp, nofun⟩, nofun⟩
    have hSlots : schema.actionSlots "Say" = [⟨"count", .integer⟩] := by decide +kernel
    have hLongFault : (quest (.quoted long) "").callFault? schema = some fault := by
      simp [quest, Quest.callFault?, Quest.blocks, Quest.blank, State.fault?, Action.fault?, hSlots,
        Param.listFault?, Param.quoted, Param.printInFault?, hFault]
    obtain ⟨-, -, hStopped⟩ := decodeWith_refused_or_stable Validator.ofFormat_lawful schema
      (encode schema (quest (.quoted long) ""))
    obtain ⟨-, read, hRead, hFinal, -⟩ := hStopped
      ((Validator.ofFormat_lawful.validate_eq_none_iff _).2 ((encode_accepted_iff _ _).2 hStorable))
    obtain rfl := Option.some.inj (((quest_faithful schema).read_write _).symm.trans hRead)
    exact ⟨fault, hFinal fault ((Quest.callFault?_content schema _).trans hLongFault)⟩

end

end Document

end QuestScript

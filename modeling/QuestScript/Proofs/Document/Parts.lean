import QuestScript.Document.Codec
import QuestScript.Proofs.Document.Acceptance
/-!
The parts of quests in documents. For each kind of part its shape, its writer and its reader belong
together: what is written is accepted if the part can be stored, and read as what counts of the part;
and what is accepted can be read. Parts that hold others have this from those.
-/

namespace QuestScript

/-- A number is an integer, however it is written. -/
def Number.IsInteger (number : Number) : Prop := number.toInt?.isSome = true

/-- A number is an integer that is not below zero. -/
def Number.IsNatural (number : Number) : Prop := number.IsInteger ∧ number.isNegative = false

namespace Document

/-- A shape, a writer and a reader belong together. What is written is accepted if the value fits, and
is read as what counts of the value; what is accepted is read as a value that fits and of which all
counts. -/
structure Faithful {β : Type} (shape : Shape) (write : β → Json) (read : Json → Option β)
    (Fits : β → Prop) (content : β → β) : Prop where
  accepts_iff : ∀ value, shape.Accepts (write value) ↔ Fits value
  read_write : ∀ value, read (write value) = some (content value)
  read_accepted : ∀ document, shape.Accepts document →
    ∃ value, read document = some value ∧ Fits value ∧ content value = value

section Reading

variable {β γ δ : Type} {read : γ → Option δ}

/-- What is written item by item is read item by item, in the same order. -/
theorem mapM_map_eq_some {write : β → γ} {result : β → δ}
    (hRead : ∀ value, read (write value) = some (result value)) (values : List β) :
    (values.map write).mapM read = some (values.map result) := by
  induction values with
  | nil => rfl
  | cons value values ih => simp [hRead, ih]

/-- A list is read when each of its items is, and what holds of each item read holds of all of
them. -/
theorem exists_mapM_eq_some {items : List γ} {Good : δ → Prop}
    (hItems : ∀ item ∈ items, ∃ value, read item = some value ∧ Good value) :
    ∃ values, items.mapM read = some values ∧ ∀ value ∈ values, Good value := by
  induction items with
  | nil => exact ⟨[], rfl, nofun⟩
  | cons item items ih =>
      obtain ⟨⟨value, hRead, hGood⟩, hRest⟩ := List.forall_mem_cons.1 hItems
      obtain ⟨values, hReads, hAll⟩ := ih hRest
      refine ⟨value :: values, ?_, List.forall_mem_cons.2 ⟨hGood, hAll⟩⟩
      simp [hRead, hReads]

end Reading

section Combinators

variable {β : Type} {shape : Shape} {write : β → Json} {read : Json → Option β} {Fits : β → Prop}
  {content : β → β}

/-- If all of a value is written and read back, and just the values that fit are accepted, the three
belong together. -/
theorem Faithful.of_accepts_iff (hRead : ∀ value, read (write value) = some value)
    (hAccepts : ∀ document, shape.Accepts document ↔ ∃ value, document = write value ∧ Fits value) :
    Faithful shape write read Fits id where
  accepts_iff := by
    intro value
    rw [hAccepts]
    constructor
    · rintro ⟨other, hSame, hFits⟩
      have hOther : some value = some other := by rw [← hRead, hSame, hRead]
      cases hOther
      exact hFits
    · intro hFits
      exact ⟨value, rfl, hFits⟩
  read_write := hRead
  read_accepted := by
    intro document accepts
    obtain ⟨value, rfl, hFits⟩ := (hAccepts document).1 accepts
    exact ⟨value, hRead value, hFits, rfl⟩

/-- What is written of a value that may be missing. -/
def writeNullable (write : β → Json) : Option β → Json
  | none => .null
  | some value => write value

/-- A value that is not null is read as if null were not allowed. -/
theorem readNullable?_of_ne_null {document : Json} (hNull : document ≠ .null) :
    readNullable? read document = (read document).map some := by
  cases document with
  | null => exact absurd rfl hNull
  | _ => rfl

/-- A value that may be missing is written as null where it is. -/
theorem Faithful.nullable (faithful : Faithful shape write read Fits content)
    {shape' : Shape} (hShape : ∀ document, shape'.Accepts document ↔
      document = .null ∨ shape.Accepts document)
    (hNull : ¬ shape.Accepts .null) (hWrite : ∀ value, write value ≠ .null) :
    Faithful shape' (writeNullable write) (readNullable? read) (fun value => ∀ x ∈ value, Fits x)
      (Option.map content) where
  accepts_iff := by
    intro value
    rw [hShape]
    cases value with
    | none => simp [writeNullable]
    | some value => simp [writeNullable, hWrite, faithful.accepts_iff]
  read_write := by
    intro value
    cases value with
    | none => rfl
    | some value =>
        show readNullable? read (write value) = _
        rw [readNullable?_of_ne_null (hWrite value), faithful.read_write]
        rfl
  read_accepted := by
    intro document accepts
    rcases (hShape document).1 accepts with rfl | hAccepts
    · exact ⟨none, rfl, nofun, rfl⟩
    · obtain ⟨value, hRead, hFits, hContent⟩ := faithful.read_accepted document hAccepts
      have hNe : document ≠ .null := by
        rintro rfl
        exact hNull hAccepts
      apply Exists.intro (some value)
      rw [readNullable?_of_ne_null hNe, hRead]
      simpa using ⟨hFits, hContent⟩

/-- Items are written and read one by one. -/
theorem Faithful.items (faithful : Faithful shape write read Fits content) :
    Faithful (.array shape) (fun values => .array (values.map write)) (readItems? read)
      (fun values => ∀ value ∈ values, Fits value) (List.map content) where
  accepts_iff := by
    intro values
    simp [Shape.array_accepts_iff, faithful.accepts_iff]
  read_write := fun values => mapM_map_eq_some faithful.read_write values
  read_accepted := by
    intro document accepts
    obtain ⟨items, rfl, hItems⟩ := Shape.array_accepts_iff.1 accepts
    obtain ⟨values, hReads, hGood⟩ := exists_mapM_eq_some fun item hItem =>
      faithful.read_accepted item (hItems item hItem)
    have hContent : values.map content = values.map id :=
      List.map_congr_left fun value hMem => (hGood value hMem).2
    refine ⟨values, hReads, fun value hMem => (hGood value hMem).1, ?_⟩
    rw [hContent, List.map_id]

variable {required : List String} {shapes : List (String × Shape)} {document : Json}

/-- A member that has to be there can be read. -/
theorem Faithful.read_required (faithful : Faithful shape write read Fits content) (name : String)
    (accepts : (Shape.record required shapes).Accepts document) (hRequired : name ∈ required)
    (hShape : (name, shape) ∈ shapes) :
    ∃ value, readMember? read document name = some value ∧ Fits value ∧ content value = value := by
  obtain ⟨found, hFound, hAccepts⟩ := accepts.required hRequired hShape
  rw [readMember?, hFound]
  exact faithful.read_accepted found hAccepts

/-- A member that may be left out can be read, and has its default if it is. -/
theorem Faithful.read_optional (faithful : Faithful shape write read Fits content) (name : String)
    (default : β) (accepts : (Shape.record required shapes).Accepts document)
    (hShape : (name, shape) ∈ shapes) (hFits : Fits default) (hContent : content default = default) :
    ∃ value, readMemberD read default document name = some value ∧ Fits value ∧
      content value = value := by
  unfold readMemberD
  split
  · next found hFound => exact faithful.read_accepted found (accepts.member hShape hFound)
  · exact ⟨default, rfl, hFits, hContent⟩

end Combinators

/-! ### Texts, truth values and numbers -/

theorem text_faithful : Faithful Shape.text .string readText? (fun _ => True) id := by
  apply Faithful.of_accepts_iff
  · exact fun _ => rfl
  · intro document
    cases document <;> simp [Shape.text, Shape.scalar_accepts_iff, ValueType.accepts]

theorem name_faithful : Faithful Shape.name .string readText? (· ≠ "") id := by
  apply Faithful.of_accepts_iff
  · exact fun _ => rfl
  · intro document
    cases document <;>
      simp [Shape.name, Shape.scalar_accepts_iff, ValueType.accepts, emptyViolations]

theorem truth_faithful : Faithful Shape.truth .bool readBool? (fun _ => True) id := by
  apply Faithful.of_accepts_iff
  · exact fun _ => rfl
  · intro document
    cases document <;> simp [Shape.truth, Shape.scalar_accepts_iff, ValueType.accepts]

theorem integer_faithful : Faithful Shape.integer .number readNumber? Number.IsInteger id := by
  apply Faithful.of_accepts_iff
  · exact fun _ => rfl
  · intro document
    cases document <;>
      simp [Shape.integer, Shape.scalar_accepts_iff, ValueType.accepts, Number.IsInteger]

/-- A natural is an integer from zero on. The shape refuses the others before they are read. -/
theorem natural_faithful : Faithful Shape.natural .number readNumber? Number.IsNatural id := by
  apply Faithful.of_accepts_iff
  · exact fun _ => rfl
  · intro document
    cases document <;>
      simp [Shape.natural, Shape.scalar_accepts_iff, ValueType.accepts, negativeViolations,
        Number.IsNatural, Number.IsInteger]

/-- An absent number is written as null and read back as absent. -/
theorem optionalInteger_faithful :
    Faithful Shape.optionalInteger (writeNullable .number) (readNullable? readNumber?)
      (fun number => ∀ n ∈ number, n.IsInteger) (Option.map id) := by
  apply integer_faithful.nullable
  · intro document
    cases document <;>
      simp [Shape.optionalInteger, Shape.integer, Shape.scalar_accepts_iff, ValueType.accepts]
  · simp [Shape.integer, Shape.scalar_accepts_iff, ValueType.accepts]
  · intro number hNull
    cases hNull

/-! ### Calls -/

/-- A parameter is text or an integer in a document, and is read back without its spelling. -/
theorem param_faithful :
    Faithful Shape.param encodeParam readParam? (fun _ => True) Param.content where
  accepts_iff := by
    intro param
    cases param <;>
      simp [encodeParam, Json.int, Shape.param, Shape.scalar_accepts_iff, ValueType.accepts,
        Number.toInt?]
  read_write := by
    intro param
    cases param <;> rfl
  read_accepted := by
    intro document accepts
    have hTypes := Shape.scalar_accepts_iff.1 accepts
    cases document with
    | string text => exact ⟨.quoted text, rfl, trivial, rfl⟩
    | number number =>
        obtain ⟨value, hValue⟩ : ∃ value, number.toInt? = some value := by
          simpa [ValueType.accepts, Option.isSome_iff_exists] using hTypes
        refine ⟨.int value, ?_, trivial, rfl⟩
        rw [readParam?, hValue]
        rfl
    | _ => simp [ValueType.accepts] at hTypes

theorem optionalParam_faithful :
    Faithful (.scalar [.string, .integer, .null] false false) encodeOptional
      (readNullable? readParam?) (fun param => ∀ x ∈ param, True) (Option.map Param.content) := by
  have hWrite : encodeOptional = writeNullable encodeParam := by
    funext param
    cases param <;> rfl
  rw [hWrite]
  apply param_faithful.nullable
  · intro document
    cases document <;> simp [Shape.param, Shape.scalar_accepts_iff, ValueType.accepts]
  · simp [Shape.param, Shape.scalar_accepts_iff, ValueType.accepts]
  · intro param hNull
    cases param <;> cases hNull

/-- An action is written with its type, its parameters and its spelling, and is accepted exactly
when its type is not empty. -/
theorem action_faithful (schema : Schema) :
    Faithful Shape.action (encodeAction schema) readAction? (fun action => action.type ≠ "")
      Action.content where
  accepts_iff := by
    intro action
    have hFields : encodeAction schema action = .object (present
        [("type", some (.string action.type)),
          ("params", some (.array (action.params.map encodeParam))),
          ("rawText", some (.string (action.print schema)))]) := rfl
    rw [hFields, Shape.action, Shape.record_accepts_present_iff rfl (by decide) (by simp)]
    simp [name_faithful.accepts_iff, param_faithful.items.accepts_iff, text_faithful.accepts_iff]
  read_write := by
    intro action
    have hParams := param_faithful.items.read_write action.params
    simp [readAction?, readMember?, encodeAction, Json.member?, List.lookup_cons, readText?,
      hParams, Action.content]
  read_accepted := by
    intro document accepts
    obtain ⟨type, hType, hName, _⟩ := name_faithful.read_required "type" accepts (by simp) (by simp)
    obtain ⟨params, hParams, _, hContent⟩ := param_faithful.items.read_required "params" accepts
      (by simp) (by simp)
    refine ⟨⟨type, params, ""⟩, ?_, hName, ?_⟩
    · rw [readAction?, hType, hParams]
      rfl
    · rw [Action.content, hContent]

/-- A rule is written as an action is, with its target. The target may be empty where the type may
not. -/
theorem rule_faithful (schema : Schema) :
    Faithful Shape.rule (encodeRule schema) readRule? (fun rule => rule.type ≠ "")
      Rule.content where
  accepts_iff := by
    intro rule
    have hFields : encodeRule schema rule = .object (present
        [("type", some (.string rule.type)),
          ("params", some (.array (rule.params.map encodeParam))),
          ("gotoState", some (.string rule.goto)),
          ("rawText", some (.string (rule.print schema)))]) := rfl
    rw [hFields, Shape.rule, Shape.record_accepts_present_iff rfl (by decide) (by simp)]
    simp [name_faithful.accepts_iff, param_faithful.items.accepts_iff, text_faithful.accepts_iff]
  read_write := by
    intro rule
    have hParams := param_faithful.items.read_write rule.params
    simp [readRule?, readMember?, encodeRule, Json.member?, List.lookup_cons, readText?, hParams,
      Rule.content]
  read_accepted := by
    intro document accepts
    obtain ⟨type, hType, hName, _⟩ := name_faithful.read_required "type" accepts (by simp) (by simp)
    obtain ⟨params, hParams, _, hContent⟩ := param_faithful.items.read_required "params" accepts
      (by simp) (by simp)
    obtain ⟨goto, hGoto, _⟩ := text_faithful.read_required "gotoState" accepts (by simp) (by simp)
    refine ⟨⟨type, params, goto, ""⟩, ?_, hName, ?_⟩
    · rw [readRule?, hType, hParams, hGoto]
      rfl
    · rw [Rule.content, hContent]

end Document

/-! ### States and random blocks -/

/-- A state has a name, and so has each of its calls. -/
structure State.Named (state : State) : Prop where
  name : state.name ≠ ""
  actions : ∀ action ∈ state.actions, action.type ≠ ""
  rules : ∀ rule ∈ state.rules, rule.type ≠ ""

/-- A target has a name, and its weight is an integer that is not below zero. -/
structure RandomTarget.Storable (target : RandomTarget) : Prop where
  state : target.state ≠ ""
  weight : target.weight.IsNatural

/-- A random block has a name, and its targets can be stored. -/
structure RandomBlock.Storable (block : RandomBlock) : Prop where
  name : block.name ≠ ""
  targets : ∀ target ∈ block.targets, target.Storable

namespace Document

/-- A state is accepted when it and all its actions and rules are named. -/
theorem state_faithful (schema : Schema) :
    Faithful Shape.state (encodeState schema) readState? State.Named State.content where
  accepts_iff := by
    intro state
    have hFields : encodeState schema state = .object (present
        [("name", some (.string state.name)), ("description", some (.string state.description)),
          ("actions", some (.array (state.actions.map (encodeAction schema)))),
          ("rules", some (.array (state.rules.map (encodeRule schema))))]) := rfl
    rw [hFields, Shape.state, Shape.record_accepts_present_iff rfl (by decide) (by simp)]
    simp only [List.forall₂_cons, List.forall₂_nil_left_iff, Option.mem_some_iff, forall_eq',
      name_faithful.accepts_iff, text_faithful.accepts_iff,
      (action_faithful schema).items.accepts_iff, (rule_faithful schema).items.accepts_iff]
    constructor
    · rintro ⟨hName, _, hActions, hRules, _⟩
      exact ⟨hName, hActions, hRules⟩
    · intro hNamed
      exact ⟨hNamed.name, trivial, hNamed.actions, hNamed.rules, trivial⟩
  read_write := by
    intro state
    have hActions := (action_faithful schema).items.read_write state.actions
    have hRules := (rule_faithful schema).items.read_write state.rules
    simp [readState?, readMember?, readMemberD, encodeState, Json.member?, List.lookup_cons,
      readText?, hActions, hRules, State.content]
  read_accepted := by
    intro document accepts
    obtain ⟨name, hName, hNamed, _⟩ := name_faithful.read_required "name" accepts
      (by simp) (by simp)
    obtain ⟨description, hDescription, _⟩ := text_faithful.read_optional "description" "" accepts
      (by simp) trivial rfl
    obtain ⟨actions, hActions, hTypes, hContent⟩ :=
      (action_faithful schema).items.read_optional "actions" [] accepts (by simp)
        (List.forall_mem_nil _) rfl
    obtain ⟨rules, hRules, hTypes', hContent'⟩ :=
      (rule_faithful schema).items.read_optional "rules" [] accepts (by simp)
        (List.forall_mem_nil _) rfl
    refine ⟨⟨name, description, actions, rules⟩, ?_, ⟨hNamed, hTypes, hTypes'⟩, ?_⟩
    · rw [readState?, hName, hDescription, hActions, hRules]
      rfl
    · rw [State.content, hContent, hContent']

theorem target_faithful :
    Faithful Shape.randomTarget encodeTarget readTarget? RandomTarget.Storable id where
  accepts_iff := by
    intro target
    have hFields : encodeTarget target = .object (present
        [("state", some (.string target.state)), ("weight", some (.number target.weight))]) := rfl
    rw [hFields, Shape.randomTarget, Shape.record_accepts_present_iff rfl (by decide) (by simp)]
    simp only [List.forall₂_cons, List.forall₂_nil_left_iff, Option.mem_some_iff, forall_eq',
      name_faithful.accepts_iff, natural_faithful.accepts_iff]
    constructor
    · rintro ⟨hState, hWeight, _⟩
      exact ⟨hState, hWeight⟩
    · intro hStorable
      exact ⟨hStorable.state, hStorable.weight, trivial⟩
  read_write := fun _ => rfl
  read_accepted := by
    intro document accepts
    obtain ⟨state, hState, hName, _⟩ := name_faithful.read_required "state" accepts
      (by simp) (by simp)
    obtain ⟨weight, hWeight, hNatural, _⟩ := natural_faithful.read_optional "weight" 1 accepts
      (by simp) ⟨rfl, rfl⟩ rfl
    refine ⟨⟨state, weight⟩, ?_, ⟨hName, hNatural⟩, rfl⟩
    rw [readTarget?, hState, hWeight]
    rfl

/-- A random block is accepted when it and its targets have names and no weight is negative. -/
theorem random_faithful :
    Faithful Shape.randomBlock encodeRandom readRandom? RandomBlock.Storable id where
  accepts_iff := by
    intro block
    have hFields : encodeRandom block = .object (present
        [("name", some (.string block.name)),
          ("targets", some (.array (block.targets.map encodeTarget)))]) := rfl
    rw [hFields, Shape.randomBlock, Shape.record_accepts_present_iff rfl (by decide) (by simp)]
    simp only [List.forall₂_cons, List.forall₂_nil_left_iff, Option.mem_some_iff, forall_eq',
      name_faithful.accepts_iff, target_faithful.items.accepts_iff]
    constructor
    · rintro ⟨hName, hTargets, _⟩
      exact ⟨hName, hTargets⟩
    · intro hStorable
      exact ⟨hStorable.name, hStorable.targets, trivial⟩
  read_write := by
    intro block
    have hTargets := target_faithful.items.read_write block.targets
    simp [readRandom?, readMember?, encodeRandom, Json.member?, List.lookup_cons, readText?,
      hTargets]
  read_accepted := by
    intro document accepts
    obtain ⟨name, hName, hNamed, _⟩ := name_faithful.read_required "name" accepts
      (by simp) (by simp)
    obtain ⟨targets, hTargets, hStorable, _⟩ := target_faithful.items.read_required "targets" accepts
      (by simp) (by simp)
    refine ⟨⟨name, targets⟩, ?_, ⟨hNamed, hStorable⟩, rfl⟩
    rw [readRandom?, hName, hTargets]
    rfl

end Document

end QuestScript

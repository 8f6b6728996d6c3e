import QuestScript.Proofs.Quest.Sourced
/-!
Which quests can be written: those each of whose integers, where it is written, has few enough digits.
A fault is that of the part that comes first, and there is none if no part has one. Whatever a script
gave can be written under the schema it was read with.
-/

namespace QuestScript

variable {schema : Schema} {quest : Quest}

/-! ### The parts of what is written -/

theorem Number.textFault?_int {n : Int} :
    (Number.int n).textFault? = none ↔ Integer.fits n = true := Integer.textFault?_eq_none_iff

/-- A state can be written just if each of its calls can. -/
theorem State.fault?_eq_none_iff {state : State} :
    state.fault? schema = none ↔
      (∀ action ∈ state.actions, action.fault? schema = none) ∧
        ∀ rule ∈ state.rules, rule.fault? schema = none := by
  rw [State.fault?, Option.or_eq_none_iff, List.findSome?_eq_none_iff, List.findSome?_eq_none_iff]

/-- The calls of a quest can be written just if those of each block can. -/
theorem Quest.callFault?_eq_none_iff :
    quest.callFault? schema = none ↔ ∀ block ∈ quest.blocks, block.fault? schema = none :=
  List.findSome?_eq_none_iff

theorem RandomBlock.fault?_eq_none_iff {block : RandomBlock} :
    block.fault? = none ↔ ∀ target ∈ block.targets, target.fault? = none :=
  List.findSome?_eq_none_iff

/-- The attributes can be written if the version, each gate that is set and each value of another
attribute can. The name and the flags hold no integer. -/
theorem Quest.attributeFault?_eq_none_iff :
    quest.attributeFault? = none ↔
      quest.version.textFault? = none ∧
        (∀ gate number, quest.gates.get gate = some number → number.textFault? = none) ∧
        ∀ entry ∈ quest.extra.entries, extraFault? entry = none := by
  have hGates : (Gate.all.findSome? fun gate => (quest.gates.get gate).bind Number.textFault?) =
      none ↔ ∀ gate number, quest.gates.get gate = some number → number.textFault? = none := by
    rw [List.findSome?_eq_none_iff]
    constructor
    · intro hAll gate number hGate
      have hBound := hAll gate (by cases gate <;> decide)
      rwa [hGate] at hBound
    · intro hAll gate _
      cases hGate : quest.gates.get gate with
      | none => rfl
      | some number => exact hAll gate number hGate
  rw [Quest.attributeFault?, Option.or_eq_none_iff, Option.or_eq_none_iff, hGates,
    List.findSome?_eq_none_iff]

/-- What makes a quest one that can be written, part by part. -/
structure Quest.Writable (schema : Schema) (quest : Quest) : Prop where
  version : quest.version.textFault? = none
  gates : ∀ gate number, quest.gates.get gate = some number → number.textFault? = none
  extra : ∀ entry ∈ quest.extra.entries, extraFault? entry = none
  actions : ∀ block ∈ quest.blocks, ∀ action ∈ block.actions, action.fault? schema = none
  rules : ∀ block ∈ quest.blocks, ∀ rule ∈ block.rules, rule.fault? schema = none
  weights : ∀ block ∈ quest.random, ∀ target ∈ block.targets, target.fault? = none

/-- A quest can be written just if no integer of it is too long, be it in a call, an attribute or
a weight. -/
theorem Quest.fault?_eq_none_iff : quest.fault? schema = none ↔ quest.Writable schema := by
  rw [Quest.fault?, Option.or_eq_none_iff, Option.or_eq_none_iff,
    Quest.attributeFault?_eq_none_iff, Quest.callFault?_eq_none_iff, List.findSome?_eq_none_iff]
  constructor
  · rintro ⟨⟨hVersion, hGates, hExtra⟩, hBlocks, hRandom⟩
    exact ⟨hVersion, hGates, hExtra,
      fun block hMem => (State.fault?_eq_none_iff.1 (hBlocks block hMem)).1,
      fun block hMem => (State.fault?_eq_none_iff.1 (hBlocks block hMem)).2,
      fun block hMem => RandomBlock.fault?_eq_none_iff.1 (hRandom block hMem)⟩
  · rintro ⟨hVersion, hGates, hExtra, hActions, hRules, hWeights⟩
    exact ⟨⟨hVersion, hGates, hExtra⟩,
      fun block hMem => State.fault?_eq_none_iff.2 ⟨hActions block hMem, hRules block hMem⟩,
      fun block hMem => RandomBlock.fault?_eq_none_iff.2 (hWeights block hMem)⟩

/-- The weight of a target that can be written has few enough digits: a weight of one is left out, but
has few enough anyway. -/
theorem RandomTarget.fits_weight {target : RandomTarget} {weight : Int}
    (hWeight : target.weight = .int weight) (hTarget : target.fault? = none) :
    Integer.fits weight = true := by
  rw [RandomTarget.fault?, hWeight] at hTarget
  split at hTarget
  · next hOne =>
      have hSame : weight = 1 := by simpa [Number.sameValue] using hOne
      rw [hSame]
      exact Integer.fits_one
  · exact Number.textFault?_int.1 hTarget

theorem RandomTarget.fault?_eq_none {target : RandomTarget} {weight : Int}
    (hWeight : target.weight = .int weight) (hFits : Integer.fits weight = true) :
    target.fault? = none := by
  rw [RandomTarget.fault?, hWeight, Number.textFault?_int.2 hFits, ite_self]

/-! ### Normal quests -/

namespace Param

/-- The normal form of a parameter that can be written can be written. -/
theorem valueFault?_normal {param : Param} (hParam : param.valueFault? = none) :
    param.normal.valueFault? = none := by
  cases param with
  | text value bare => rfl
  | int value => exact hParam

/-- The same holds in a slot. A text becomes an integer there that was within the limit already.
-/
theorem printInFault?_normalIn {param : Param} {type : Schema.SlotType}
    (hParam : param.printInFault? type = none) : (param.normalIn type).printInFault? type = none := by
  cases type with
  | string => rfl
  | integer =>
      obtain ⟨n, _, hNormal, hFits⟩ := fits_of_printInFault? hParam
      rw [hNormal]
      exact Integer.textFault?_eq_none_iff.2 hFits

/-- Arguments that can be written can be written again as they come back. In a string slot the
converse fails: there an integer comes back as text. -/
theorem listFault?_normalList {params : List Param} {slots : List Schema.Slot}
    (hParams : listFault? params slots = none) :
    listFault? (normalList params slots) slots = none := by
  fun_induction normalList params slots with
  | case1 => exact hParams
  | case2 param params ih =>
      rw [listFault?, Option.or_eq_none_iff] at hParams ⊢
      exact ⟨valueFault?_normal hParams.1, ih hParams.2⟩
  | case3 param params slot slots ih =>
      rw [listFault?, Option.or_eq_none_iff] at hParams ⊢
      exact ⟨printInFault?_normalIn hParams.1, ih hParams.2⟩

end Param

theorem State.forall_actions_normal {state : State}
    (hActions : ∀ action ∈ state.actions, action.fault? schema = none) :
    ∀ action ∈ (state.normal schema).actions, action.fault? schema = none := by
  intro action hMem
  obtain ⟨made, hMade, rfl⟩ := List.mem_map.1 hMem
  exact Param.listFault?_normalList (hActions made hMade)

theorem State.forall_rules_normal {state : State}
    (hRules : ∀ rule ∈ state.rules, rule.fault? schema = none) :
    ∀ rule ∈ (state.normal schema).rules, rule.fault? schema = none := by
  intro rule hMem
  obtain ⟨made, hMade, rfl⟩ := List.mem_map.1 hMem
  exact Param.listFault?_normalList (hRules made hMade)

/-- Each block of a normal quest has the calls of a block of the quest, as they come back. -/
theorem Quest.exists_of_mem_blocks_normal {block : State}
    (hMem : block ∈ (quest.normal schema).blocks) :
    ∃ made ∈ quest.blocks, block.actions = (made.normal schema).actions ∧
      block.rules = (made.normal schema).rules := by
  rcases List.mem_append.1 hMem with hMain | hState
  · obtain ⟨made, hMade, rfl⟩ := Option.map_eq_some_iff.1 (Option.mem_toList.1 hMain)
    exact ⟨made, List.mem_append_left _ (Option.mem_toList.2 hMade), rfl, rfl⟩
  · obtain ⟨made, hMade, rfl⟩ := List.mem_map.1 hState
    exact ⟨made, List.mem_append_right _ hMade, rfl, rfl⟩

/-- A quest that can be written can be written again as it comes back. -/
theorem Quest.Writable.normal (hQuest : quest.Writable schema) :
    (quest.normal schema).Writable schema where
  version := hQuest.version
  gates := hQuest.gates
  extra := by
    intro entry hMem
    obtain ⟨⟨key, value⟩, hMade, rfl⟩ := List.mem_map.1 hMem
    cases value with
    | none => rfl
    | some param => exact Param.valueFault?_normal (hQuest.extra _ hMade)
  actions := by
    intro block hMem
    obtain ⟨made, hMade, hActions, -⟩ := Quest.exists_of_mem_blocks_normal hMem
    rw [hActions]
    exact State.forall_actions_normal (hQuest.actions made hMade)
  rules := by
    intro block hMem
    obtain ⟨made, hMade, -, hRules⟩ := Quest.exists_of_mem_blocks_normal hMem
    rw [hRules]
    exact State.forall_rules_normal (hQuest.rules made hMade)
  weights := hQuest.weights

/-! ### What was read -/

/-- Whatever was read from a script can be written under the schema it was read with. -/
theorem Quest.Sourced.writable (hQuest : quest.Sourced schema) : quest.Writable schema where
  version := by
    obtain ⟨n, hVersion, hFits⟩ := hQuest.version
    rw [hVersion]
    exact Number.textFault?_int.2 hFits
  gates := by
    intro gate number hGate
    obtain ⟨n, rfl, hFits⟩ := hQuest.gates gate number hGate
    exact Number.textFault?_int.2 hFits
  extra := by
    intro entry hMem
    obtain ⟨key, value, _, hKey, hFits, rfl⟩ := hQuest.extra entry hMem
    rw [Draft.attributeFault?, hKey] at hFits
    cases value with
    | none => rfl
    | some arg => exact Param.valueFault?_sniff hFits
  actions := by
    intro block hBlock action hMem
    obtain ⟨call, _, hFits, rfl⟩ := (hQuest.blocks block hBlock).actions action hMem
    exact Param.listFault?_ofArgs hFits
  rules := by
    intro block hBlock rule hMem
    obtain ⟨call, goto, _, _, hFits, rfl⟩ := (hQuest.blocks block hBlock).rules rule hMem
    exact Param.listFault?_ofArgs hFits
  weights := by
    intro block hBlock target hMem
    obtain ⟨weight, hWeight, hFits⟩ := ((hQuest.random block hBlock).2 target hMem).2
    exact RandomTarget.fault?_eq_none hWeight hFits

/-- In whatever was read from a script the states that actions lead to can be found. -/
theorem State.Sourced.targetFault?_eq_none {state : State} (hState : state.Sourced schema) :
    state.targetFault? = none := by
  rw [State.targetFault?, List.findSome?_eq_none_iff]
  intro action hMem
  obtain ⟨call, _, hFits, rfl⟩ := hState.actions action hMem
  unfold Action.targetFault?
  split
  · cases hHead : (Draft.actionOf schema call).params.head? with
    | none => rfl
    | some param => exact Param.valueFault?_of_mem_ofArgs hFits param (List.mem_of_mem_head? hHead)
  · rfl

/-- A quest that can be written is written as its printed text. -/
theorem Quest.Writable.write (hQuest : quest.Writable schema) (pad : String) :
    quest.write schema pad = .ok (quest.print schema pad) := by
  rw [Quest.write, Quest.fault?_eq_none_iff.2 hQuest, Integer.guarded_none]

/-- The targets of a quest that was read can all be looked for, since its integers were read
within the limit. -/
theorem Quest.Sourced.blocks_targetFault? (hQuest : quest.Sourced schema) :
    quest.blocks.findSome? State.targetFault? = none :=
  List.findSome?_eq_none_iff.2 fun block hMem => (hQuest.blocks block hMem).targetFault?_eq_none

/-- The references of a quest that was read from a script are found, so reading it does not stop when
it looks for those to states that do not exist. -/
theorem Quest.findDangling_of_parse {id : Number} {text : String} {warnings : List Warning}
    (hParse : Quest.parse schema id text = .ok (quest, warnings)) :
    quest.findDangling = .ok quest.danglingGotos := by
  rw [Quest.findDangling, (Quest.parse_sourced hParse).blocks_targetFault?, Integer.guarded_none]

/-- A quest that was read can be written. Reading and writing have the same limit. -/
theorem Quest.fault?_of_parse {id : Number} {text : String} {warnings : List Warning}
    (hParse : Quest.parse schema id text = .ok (quest, warnings)) : quest.fault? schema = none :=
  Quest.fault?_eq_none_iff.2 (Quest.parse_sourced hParse).writable

/-- A quest that was read from a script is written. -/
theorem Quest.write_of_parse {id : Number} {text : String} {warnings : List Warning}
    (hParse : Quest.parse schema id text = .ok (quest, warnings)) (pad : String) :
    quest.write schema pad = .ok (quest.print schema pad) :=
  (Quest.parse_sourced hParse).writable.write pad

end QuestScript

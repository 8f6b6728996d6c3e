import QuestScript.Proofs.Quest.Canonical
import QuestScript.Proofs.Quest.InPlace
/-!
Calls that an editor builds have one argument for each slot of their type, and each argument is of the
type of its slot, whatever is done to them and whatever of it fails, at once or half-way.

An index below zero counts from the end of two lists, the slots and the arguments. As long as they are
equally long it means the same place in both, so a value gets the type of the slot that it ends up in;
and that keeps the lists equally long.
-/

namespace QuestScript

/-! ### Values -/

namespace EditValue

/-- The argument that a value becomes at an index: one of the type of the slot there, and past the
slots one of its own type. There is none below the slots. -/
def toParamAt? (value : EditValue) (slots : List Schema.Slot) (index : Int) : Option Param :=
  if index < slots.length then
    (place? slots.length index).bind fun place =>
      slots[place]?.map fun slot => value.toParamIn slot.type
  else some value.toParam

/-- The fault of making a value an argument at an index: the one of the slot there. A value for no slot
is taken as it is. -/
def faultAt? (value : EditValue) (slots : List Schema.Slot) (index : Int) :
    Option Integer.Oversize :=
  if index < slots.length then
    (place? slots.length index).bind fun place =>
      slots[place]?.bind fun slot => value.slotFault? slot.type
  else none

/-- A value from outside is made a parameter of the type of its slot. -/
theorem toParamIn_hasType (value : EditValue) (type : Schema.SlotType) :
    (value.toParamIn type).HasType type := by
  cases type with
  | string => cases value <;> exact trivial
  | integer =>
      cases value with
      | param tagged => cases tagged <;> exact trivial
      | number x => cases x <;> exact trivial
      | _ => exact trivial

/-- Only an index that counts from the end can be beyond the slots on the side where there is
nothing. -/
theorem toParamAt?_isSome {value : EditValue} {slots : List Schema.Slot} {index : Int} :
    (value.toParamAt? slots index).isSome ↔ 0 ≤ index ∨ -(slots.length : Int) ≤ index := by
  unfold toParamAt?
  split
  · next hBelow =>
      cases hPlace : place? slots.length index with
      | none =>
          have hNone : ¬(place? slots.length index).isSome = true := by simp [hPlace]
          rw [place?_isSome] at hNone
          simp only [Option.bind_none, Option.isSome_none, Bool.false_eq_true, false_iff]
          omega
      | some place =>
          obtain ⟨hLess, hIndex⟩ := place?_eq_some_iff.1 hPlace
          simp only [Option.bind_some, List.getElem?_eq_getElem hLess, Option.map_some,
            Option.isSome_some, true_iff]
          omega
  · next hPast =>
      simp only [Option.isSome_some, true_iff]
      omega

/-- Where the place is that of a slot, the argument is of the type of the slot. -/
theorem hasType_of_toParamAt? {value : EditValue} {slots : List Schema.Slot} {index : Int}
    {param : Param} (hParam : value.toParamAt? slots index = some param) {place : Nat}
    (hPlace : place? slots.length index = some place) {slot : Schema.Slot}
    (hSlot : slots[place]? = some slot) : param.HasType slot.type := by
  have hBelow : index < slots.length :=
    (place?_isSome.1 (Option.isSome_iff_exists.2 ⟨place, hPlace⟩)).2
  rw [toParamAt?, if_pos hBelow, hPlace, Option.bind_some, hSlot, Option.map_some] at hParam
  cases hParam
  exact value.toParamIn_hasType slot.type

end EditValue

/-- Writing a value to an argument: the slot is looked up first, then the value is converted, and then
the argument is looked up. -/
theorem setParam_eq (slots : List Schema.Slot) (params : List Param) (index : Int)
    (value : EditValue) :
    setParam slots params index value =
      match value.toParamAt? slots index, value.faultAt? slots index with
      | none, _ => .error (EditError.noSlot.ofIndex index)
      | some _, some fault => .error (.oversize fault)
      | some param, none =>
        match place? params.length index with
        | none => .error (EditError.noParam.ofIndex index)
        | some place => .ok (params.set place param) := by
  unfold setParam EditValue.toParamAt? EditValue.faultAt?
  dsimp only
  split
  · cases hPlace : place? slots.length index with
    | none => rfl
    | some place =>
        rw [Option.bind_some, Option.bind_some, Option.bind_some]
        cases slots[place]? with
        | none => rfl
        | some slot =>
            rw [Option.map_some, Option.bind_some]
            dsimp only
            cases value.slotFault? slot.type with
            | some fault => rfl
            | none => cases place? params.length index <;> rfl
  · cases place? params.length index <;> rfl

/-- A parameter is set at the place of its index, made for the slot there or as the value asks
where there is no slot. -/
theorem setParam_eq_ok {slots : List Schema.Slot} {params params' : List Param} {index : Int}
    {value : EditValue} (hSet : setParam slots params index value = .ok params') :
    ∃ place param, place? params.length index = some place ∧
      value.toParamAt? slots index = some param ∧ params' = params.set place param := by
  rw [setParam_eq] at hSet
  split at hSet
  · cases hSet
  · cases hSet
  · next param hParam _ =>
      split at hSet
      · cases hSet
      · next place hPlace =>
          cases hSet
          exact ⟨place, param, hPlace, hParam, rfl⟩

/-! ### Calls -/

/-- Arguments fill slots: there are as many of them, each of the type of the slot at its place. -/
structure Param.Fills (params : List Param) (slots : List Schema.Slot) : Prop where
  length_eq : params.length = slots.length
  typed : Param.TypedBy params slots

theorem Param.blank_hasType (type : Schema.SlotType) : (Param.blank type).HasType type := by
  cases type <;> exact trivial

/-- Blank parameters fill the slots: there is one for each, and it has the type of the slot. -/
theorem Param.blank_fills (slots : List Schema.Slot) :
    Param.Fills (slots.map fun slot => Param.blank slot.type) slots := by
  refine ⟨List.length_map _, fun i param slot hParam hSlot => ?_⟩
  rw [List.getElem?_map, hSlot, Option.map_some, Option.some.injEq] at hParam
  rw [← hParam]
  exact Param.blank_hasType slot.type

/-- A value that is written to an argument takes the type of the slot that the argument fills. -/
theorem Param.Fills.setParam {slots : List Schema.Slot} {params params' : List Param} {index : Int}
    {value : EditValue} (hFills : Param.Fills params slots)
    (hSet : QuestScript.setParam slots params index value = .ok params') :
    Param.Fills params' slots := by
  obtain ⟨place, param, hPlace, hParam, rfl⟩ := setParam_eq_ok hSet
  rw [hFills.length_eq] at hPlace
  refine ⟨(List.length_set ..).trans hFills.length_eq, fun i other slot hOther hSlot => ?_⟩
  by_cases hHere : place = i
  · subst hHere
    have hLess : place < params.length := hFills.length_eq ▸ (place?_eq_some_iff.1 hPlace).1
    rw [List.getElem?_set_self hLess, Option.some.injEq] at hOther
    rw [← hOther]
    exact EditValue.hasType_of_toParamAt? hParam hPlace hSlot
  · rw [List.getElem?_set_ne hHere] at hOther
    exact hFills.typed i other slot hOther hSlot

/-! ### Sequences of changes -/

/-- A change of an action by itself. -/
inductive ActionChange where
  | type (type : String)
  | param (index : Int) (value : EditValue)
deriving DecidableEq, Repr

/-- A change of a rule by itself. -/
inductive RuleChange where
  | type (type : String)
  | param (index : Int) (value : EditValue)
  | goto (goto : String)
deriving DecidableEq, Repr

def ActionChange.inPlace (schema : Schema) : ActionChange → InPlace Action Action
  | .type name => .changeActionType schema name
  | .param index value => .setActionParam schema index value

def RuleChange.inPlace (schema : Schema) : RuleChange → InPlace Rule Rule
  | .type name => .changeRuleType schema name
  | .param index value => .setRuleParam schema index value
  | .goto target => .setRuleGoto schema target

/-- The action after a change, as a failure leaves it if the change fails. -/
def Action.change (schema : Schema) (action : Action) (change : ActionChange) : Action :=
  match (change.inPlace schema).run action with
  | .ok _ action => action
  | .error _ action => action

/-- The rule after a change, as a failure leaves it if the change fails. -/
def Rule.change (schema : Schema) (rule : Rule) (change : RuleChange) : Rule :=
  match (change.inPlace schema).run rule with
  | .ok _ rule => rule
  | .error _ rule => rule

def Action.changeAll (schema : Schema) (action : Action) (changes : List ActionChange) : Action :=
  changes.foldl (Action.change schema) action

def Rule.changeAll (schema : Schema) (rule : Rule) (changes : List RuleChange) : Rule :=
  changes.foldl (Rule.change schema) rule

/-- The arguments of an action fill the slots of its type. -/
def Action.Filled (schema : Schema) (action : Action) : Prop :=
  Param.Fills action.params (schema.actionSlots action.type)

/-- The arguments of a rule fill the slots of its type. -/
def Rule.Filled (schema : Schema) (rule : Rule) : Prop :=
  Param.Fills rule.params (schema.ruleSlots rule.type)

theorem Action.fresh_filled (schema : Schema) (type : String) :
    (Action.fresh schema type).Filled schema := Param.blank_fills (schema.actionSlots type)

theorem Rule.fresh_filled (schema : Schema) (type goto : String) :
    (Rule.fresh schema type goto).Filled schema := Param.blank_fills (schema.ruleSlots type)

/-- An action with filled slots keeps them filled when a parameter is set. A parameter beyond the
slots may have any type. -/
theorem Action.Filled.setParam {schema : Schema} {action action' : Action} {index : Int}
    {value : EditValue} (hAction : action.Filled schema)
    (hSet : action.setParam schema index value = .ok action') : action'.Filled schema := by
  obtain ⟨params, hParams, rfl⟩ := exists_of_map_eq_ok hSet
  exact Param.Fills.setParam hAction hParams

theorem Rule.Filled.setParam {schema : Schema} {rule rule' : Rule} {index : Int}
    {value : EditValue} (hRule : rule.Filled schema)
    (hSet : rule.setParam schema index value = .ok rule') : rule'.Filled schema := by
  obtain ⟨params, hParams, rfl⟩ := exists_of_map_eq_ok hSet
  exact Param.Fills.setParam hRule hParams

/-- A value that is written keeps the type of its slot, also where the text of the action cannot be made
after that. -/
theorem Action.Filled.change {schema : Schema} {action : Action} (hAction : action.Filled schema)
    (change : ActionChange) : (action.change schema change).Filled schema := by
  cases change with
  | type type => exact Action.fresh_filled schema type
  | param index value =>
      have hEnds := InPlace.setActionParam_ends schema index value action
      rw [Action.change, ActionChange.inPlace]
      generalize (InPlace.setActionParam schema index value).run action = ended at hEnds ⊢
      cases hEnds with
      | refused => exact hAction
      | done hSet =>
          obtain ⟨changed, hChanged, hDone⟩ := exists_of_map_eq_ok hSet
          cases hDone
          exact hAction.setParam hChanged
      | stopped _ _ hLeft =>
          obtain ⟨changed, hChanged, rfl⟩ := hLeft
          have hFilled : changed.Filled schema := hAction.setParam hChanged
          exact hFilled

/-- A rule stays filled through any of the ways to change it. -/
theorem Rule.Filled.change {schema : Schema} {rule : Rule} (hRule : rule.Filled schema)
    (change : RuleChange) : (rule.change schema change).Filled schema := by
  cases change with
  | type type => exact Rule.fresh_filled schema type rule.goto
  | param index value =>
      have hEnds := InPlace.setRuleParam_ends schema index value rule
      rw [Rule.change, RuleChange.inPlace]
      generalize (InPlace.setRuleParam schema index value).run rule = ended at hEnds ⊢
      cases hEnds with
      | refused => exact hRule
      | done hSet =>
          obtain ⟨changed, hChanged, hDone⟩ := exists_of_map_eq_ok hSet
          cases hDone
          exact hRule.setParam hChanged
      | stopped _ _ hLeft =>
          obtain ⟨changed, hChanged, rfl⟩ := hLeft
          have hFilled : changed.Filled schema := hRule.setParam hChanged
          exact hFilled
  | goto goto =>
      have hEnds := InPlace.setRuleGoto_ends schema goto rule
      rw [Rule.change, RuleChange.inPlace]
      generalize (InPlace.setRuleGoto schema goto).run rule = ended at hEnds ⊢
      cases hEnds with
      | refused => exact hRule
      | done hSet =>
          cases hSet
          exact hRule
      | stopped _ _ hLeft =>
          subst hLeft
          exact hRule

/-- An action stays filled through any changes. The induction is on their list. -/
theorem Action.Filled.changeAll {schema : Schema} {action : Action}
    (hAction : action.Filled schema) (changes : List ActionChange) :
    (action.changeAll schema changes).Filled schema := by
  induction changes generalizing action with
  | nil => exact hAction
  | cons change changes ih => exact ih (hAction.change change)

/-- A rule stays filled through any changes. -/
theorem Rule.Filled.changeAll {schema : Schema} {rule : Rule} (hRule : rule.Filled schema)
    (changes : List RuleChange) : (rule.changeAll schema changes).Filled schema := by
  induction changes generalizing rule with
  | nil => exact hRule
  | cons change changes ih => exact ih (hRule.change change)

/-- A new call, changed in whatever way under the schema that it was made with, has as many arguments
as the schema declares for the type that it then has, and each is of the type of its slot. The indexes
and the values of the changes are arbitrary, and changes may fail, at once or half-way. -/
theorem Schema.changed_calls_filled (schema : Schema) :
    (∀ (type : String) (changes : List ActionChange),
      let action := (Action.fresh schema type).changeAll schema changes
      action.params.length = (schema.actionSlots action.type).length ∧
        Param.TypedBy action.params (schema.actionSlots action.type)) ∧
    ∀ (type goto : String) (changes : List RuleChange),
      let rule := (Rule.fresh schema type goto).changeAll schema changes
      rule.params.length = (schema.ruleSlots rule.type).length ∧
        Param.TypedBy rule.params (schema.ruleSlots rule.type) := by
  constructor
  · intro type changes
    have hFilled := (Action.fresh_filled schema type).changeAll changes
    exact ⟨hFilled.length_eq, hFilled.typed⟩
  · intro type goto changes
    have hFilled := (Rule.fresh_filled schema type goto).changeAll changes
    exact ⟨hFilled.length_eq, hFilled.typed⟩

end QuestScript

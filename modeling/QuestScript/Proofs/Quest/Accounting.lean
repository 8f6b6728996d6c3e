import QuestScript.Proofs.Number.Decimal
import QuestScript.Proofs.Quest.Reading
import QuestScript.Proofs.Script.Spelling
/-!
Nothing of a script is lost or read twice. The events of a script are cut into the blocks that they
open and close; the quest has exactly these blocks, in order, each with exactly the calls between its
braces. The tokens are counted against them.
-/

namespace QuestScript

open Script (Arg Call Event Kind Outline Scope ScriptSpelled Section Token countKind)

/-! ### The blocks of a script -/

/-- A block of statements with its calls, in the order in which a script gives them. -/
structure CallBlock where
  block : Section
  calls : List Call
deriving DecidableEq, Repr

namespace CallBlock

/-- The actions of a block: its calls without a goto clause. -/
def actions (schema : Schema) (block : CallBlock) : List Action :=
  (block.calls.filter fun call => call.goto.isNone).map (Draft.actionOf schema)

/-- The rules of a block: its calls with a goto clause. -/
def rules (schema : Schema) (block : CallBlock) : List Rule :=
  block.calls.filterMap fun call => call.goto.map (Draft.ruleOf schema call)

def statements (schema : Schema) (block : CallBlock) : String × List Action × List Rule :=
  (block.block.name, block.actions schema, block.rules schema)

def isMain (block : CallBlock) : Bool := block.block = .main

def add (call : Call) (block : CallBlock) : CallBlock := ⟨block.block, block.calls ++ [call]⟩

/-- The block that is open after an event. -/
def after (group : Option CallBlock) : Event → Option CallBlock
  | .openMain _ => some ⟨.main, []⟩
  | .openState _ name => some ⟨.state name, []⟩
  | .call call => group.map (add call)
  | .close => none
  | _ => group

def closed (group : Option CallBlock) : Event → Option CallBlock
  | .close => group
  | _ => none

end CallBlock

/-- The blocks that events close, in order, where one may be open before them. -/
def callBlocks (group : Option CallBlock) : List Event → List CallBlock
  | [] => []
  | event :: events =>
    (CallBlock.closed group event).toList ++ callBlocks (CallBlock.after group event) events

/-- A block of statements with its calls and its descriptions too, each with its keyword, in the order
in which a script gives them. -/
structure Body extends CallBlock where
  descs : List (Token × String)
deriving DecidableEq, Repr

namespace Body

def opened (block : Section) : Body := ⟨⟨block, []⟩, []⟩

def addCall (call : Call) (body : Body) : Body :=
  { body with toCallBlock := body.toCallBlock.add call }

def addDesc (keyword : Token) (text : String) (body : Body) : Body :=
  { body with descs := body.descs ++ [(keyword, text)] }

/-- The block that is open after an event. -/
def after (body : Option Body) : Event → Option Body
  | .openMain _ => some (opened .main)
  | .openState _ name => some (opened (.state name))
  | .desc keyword text => body.map (addDesc keyword text)
  | .call call => body.map (addCall call)
  | .close => none
  | _ => body

def closed (body : Option Body) : Event → Option Body
  | .close => body
  | _ => none

/-- The description of a block: the last one. -/
def description (body : Body) : String := (body.descs.getLast?.map Prod.snd).getD ""

/-- What a quest has of a block. -/
def state (schema : Schema) (body : Body) : State :=
  ⟨body.block.name, body.description, body.actions schema, body.rules schema⟩

end Body

/-- The blocks that events close, with their descriptions. -/
def bodies (body : Option Body) : List Event → List Body
  | [] => []
  | event :: events => (Body.closed body event).toList ++ bodies (Body.after body event) events

def Script.Event.call? : Event → Option Call
  | .call made => some made
  | _ => none

def Script.Event.random? : Event → Option RandomBlock
  | .random _ name targets => some (.ofTargets name targets)
  | _ => none

def State.statements (state : State) : String × List Action × List Rule :=
  (state.name, state.actions, state.rules)

def State.size (state : State) : Nat := state.actions.length + state.rules.length

/-- A quest holds what tokens say, where they are the spelling of events: its blocks are those of the
events in order, with their calls in order, and the tokens that open calls and blocks are as many as
the quest has of them. -/
structure Quest.HoldsAll (schema : Schema) (quest : Quest) (events : List Event)
    (tokens : List Token) : Prop where
  spelled : ScriptSpelled .top events tokens
  main : quest.main.toList.map State.statements =
    ((callBlocks none events).filter CallBlock.isMain).map (CallBlock.statements schema)
  states : quest.states.map State.statements =
    ((callBlocks none events).filter fun block => !block.isMain).map (CallBlock.statements schema)
  random : quest.random = events.filterMap Event.random?
  calls : countKind .lparen tokens = (quest.blocks.map State.size).sum
  opened : countKind .lbrace tokens =
    quest.states.length + quest.random.length + quest.main.toList.length
  closed : countKind .rbrace tokens =
    quest.states.length + quest.random.length + quest.main.toList.length

/-! ### The statements of a call -/

/-- Parameters hold arguments: there is one for each argument, in order. A text is kept unless its
slot makes it a number, and a number in its shortest form unless its slot makes it a text. -/
structure Param.Hold (slots : List Schema.Slot) (args : List Arg) (params : List Param) : Prop where
  length : params.length = args.length
  string : ∀ (i : Nat) (arg : Arg) (slot : Schema.Slot), args[i]? = some arg →
    slots[i]? = some slot → slot.type = .string → params[i]? = some (.quoted arg.text)
  undeclared : ∀ (i : Nat) (value : String), args[i]? = some (.quoted value) → slots[i]? = none →
    params[i]? = some (.quoted value)
  number : ∀ (i : Nat) (n : Int), args[i]? = some (.number (toString n)) →
    (∀ slot, slots[i]? = some slot → slot.type = .integer) → params[i]? = some (.int n)

namespace Param

theorem coerce_number (n : Int) : coerce (.number (toString n)) .integer = .int n :=
  congrArg Param.int (Integer.leadingD_toString n 0)

theorem sniff_number (n : Int) : sniff (.number (toString n)) = .int n := by
  rw [sniff, if_pos (Integer.isLiteral_toString n), Integer.leadingD_toString]

/-- The parameters made of arguments hold them one by one, each read for its slot. -/
theorem hold_ofArgs (args : List Arg) (slots : List Schema.Slot) :
    Hold slots args (ofArgs args slots) := by
  fun_induction ofArgs args slots with
  | case1 => constructor <;> simp
  | case2 arg args ih =>
      refine ⟨by simp [ih.length], by simp, fun i value hArg hSlot => ?_, fun i n hArg hSlot => ?_⟩
      · cases i with
        | zero => cases hArg; rfl
        | succ i => exact ih.undeclared i value hArg hSlot
      · cases i with
        | zero => cases hArg; exact congrArg some (sniff_number n)
        | succ i => exact ih.number i n hArg hSlot
  | case3 arg args slot slots ih =>
      refine ⟨by simp [ih.length], fun i arg' slot' hArg hSlot hType => ?_,
        fun i value hArg hSlot => ?_, fun i n hArg hSlot => ?_⟩
      · cases i with
        | zero => cases hArg; cases hSlot; rw [List.getElem?_cons_zero, hType, coerce]
        | succ i => exact ih.string i arg' slot' hArg hSlot hType
      · cases i with
        | zero => cases hSlot
        | succ i => exact ih.undeclared i value hArg hSlot
      · cases i with
        | zero =>
            have hType : slot.type = .integer := hSlot slot rfl
            cases hArg
            rw [List.getElem?_cons_zero, hType, coerce_number]
        | succ i => exact ih.number i n hArg hSlot

end Param

namespace CallBlock

/-- The actions of a block are its calls without a goto clause, in order: each has the name of its
call, and parameters that hold the call's arguments. -/
theorem forall₂_actions (schema : Schema) (block : CallBlock) :
    List.Forall₂
      (fun call action => action.type = call.name.value ∧
        Param.Hold (schema.actionSlots call.name.value) call.args action.params)
      (block.calls.filter fun call => call.goto.isNone) (block.actions schema) := by
  rw [actions, List.forall₂_map_right_iff, List.forall₂_same]
  exact fun call _ => ⟨rfl, Param.hold_ofArgs call.args _⟩

/-- The rules of a block are its calls with a goto clause, in order: each leads where its call does,
has the name of the call, and parameters that hold the call's arguments. -/
theorem forall₂_rules (schema : Schema) (block : CallBlock) :
    List.Forall₂
      (fun call rule => call.goto = some rule.goto ∧ rule.type = call.name.value ∧
        Param.Hold (schema.ruleSlots call.name.value) call.args rule.params)
      (block.calls.filter fun call => call.goto.isSome) (block.rules schema) := by
  obtain ⟨_, calls⟩ := block
  induction calls with
  | nil => exact .nil
  | cons call calls ih =>
      unfold rules at ih ⊢
      cases hGoto : call.goto with
      | none =>
          simp only [List.filter_cons, List.filterMap_cons, hGoto, Option.map_none,
            Option.isSome_none, Bool.false_eq_true, if_false]
          exact ih
      | some target =>
          simp only [List.filter_cons, List.filterMap_cons, hGoto, Option.map_some,
            Option.isSome_some, if_true]
          exact .cons ⟨hGoto, rfl, Param.hold_ofArgs call.args _⟩ ih

end CallBlock

/-! ### The blocks of a quest -/

/-- A block that is open holds what was read since its brace. A main block is open only while the
quest has none. -/
def Held (schema : Schema) (quest : Quest) (current : Option OpenBlock) (body : Option Body) :
    Prop :=
  match current, body with
  | none, none => True
  | some current, some body =>
    current.block = body.block ∧ current.state = body.state schema ∧
      current.described = !body.descs.isEmpty ∧ (body.block = .main → quest.main = none)
  | _, _ => False

/-- A quest has gained blocks at its end, and random blocks. -/
structure GainsBodies (schema : Schema) (quest : Quest) (found : List Body)
    (random : List RandomBlock) (quest' : Quest) : Prop where
  main : quest'.main.toList =
    quest.main.toList ++ (found.filter fun body => body.isMain).map (Body.state schema)
  states : quest'.states =
    quest.states ++ (found.filter fun body => !body.isMain).map (Body.state schema)
  random : quest'.random = quest.random ++ random

section

variable {schema : Schema}

/-- What the current block holds does not depend on what else the quest has gained. -/
theorem Held.of_main_eq {quest quest' : Quest} {current : Option OpenBlock} {body : Option Body}
    (held : Held schema quest current body) (hMain : quest'.main = quest.main) :
    Held schema quest' current body := by
  unfold Held at held ⊢
  rwa [hMain]

/-- The open block and what was read of it change alike. -/
theorem Held.onBlock {quest : Quest} {current : Option OpenBlock} {body : Option Body}
    (held : Held schema quest current body) {change : OpenBlock → OpenBlock} {grow : Body → Body}
    (hBlock : ∀ old, (change old).block = old.block) (hGrown : ∀ old, (grow old).block = old.block)
    (hState : ∀ old body, old.state = body.state schema →
      (change old).state = (grow body).state schema)
    (hDescribed : ∀ old body, old.described = !body.descs.isEmpty →
      (change old).described = !(grow body).descs.isEmpty) :
    Held schema quest (current.map change) (body.map grow) := by
  cases current <;> cases body <;> try exact held
  next old body =>
    obtain ⟨hSame, hWas, hSeen, hMain⟩ := held
    refine ⟨?_, hState old body hWas, hDescribed old body hSeen, ?_⟩
    · rw [hBlock, hGrown, hSame]
    · rwa [hGrown]

/-- A step outside of all blocks gains none, whatever attribute it sets. -/
theorem GainsBodies.nothing {quest quest' : Quest} (hMain : quest'.main = quest.main)
    (hStates : quest'.states = quest.states) (hRandom : quest'.random = quest.random) :
    GainsBodies schema quest [] [] quest' :=
  ⟨by simp [hMain], by simp [hStates], by simp [hRandom]⟩

/-- Gains of two stretches of a script add up in their order. -/
theorem GainsBodies.append {quest quest' quest'' : Quest} {found found' : List Body}
    {random random' : List RandomBlock} (first : GainsBodies schema quest found random quest')
    (second : GainsBodies schema quest' found' random' quest'') :
    GainsBodies schema quest (found ++ found') (random ++ random') quest'' := by
  refine ⟨?_, ?_, ?_⟩
  · rw [second.main, first.main, List.filter_append, List.map_append, List.append_assoc]
  · rw [second.states, first.states, List.filter_append, List.map_append, List.append_assoc]
  · rw [second.random, first.random, List.append_assoc]

theorem Body.state_addAction (body : Body) {call : Call} (hGoto : call.goto = none) :
    (body.addCall call).state schema =
      { body.state schema with
        actions := (body.state schema).actions ++ [Draft.actionOf schema call] } := by
  simp [state, addCall, description, CallBlock.add, CallBlock.actions, CallBlock.rules,
    List.filter_append, hGoto]

theorem Body.state_addRule (body : Body) {call : Call} {target : String}
    (hGoto : call.goto = some target) :
    (body.addCall call).state schema =
      { body.state schema with
        rules := (body.state schema).rules ++ [Draft.ruleOf schema call target] } := by
  simp [state, addCall, description, CallBlock.add, CallBlock.actions, CallBlock.rules,
    List.filter_append, hGoto]

theorem Body.state_addDesc (body : Body) (keyword : Token) (text : String) :
    (body.addDesc keyword text).state schema =
      { body.state schema with description := text } := by
  simp [state, addDesc, description]

/-- An event adds to a quest the block that it closes, or the random block that it is. -/
theorem Takes.gainsBodies {quest quest' : Quest} {current current' : Option OpenBlock}
    {body : Option Body} {event : Event} (takes : Takes schema quest current event quest' current')
    (held : Held schema quest current body) :
    Held schema quest' current' (Body.after body event) ∧
      GainsBodies schema quest (Body.closed body event).toList event.random?.toList quest' := by
  cases takes with
  | @known _ key value known hKey =>
      obtain ⟨_, hMain, hStates, hRandom, _⟩ := Draft.setAttribute_frame quest known value
      exact ⟨held.of_main_eq hMain, .nothing hMain hStates hRandom⟩
  | other hKey => exact ⟨held, .nothing rfl rfl rfl⟩
  | openMain hMain => exact ⟨⟨rfl, rfl, rfl, fun _ => hMain⟩, .nothing rfl rfl rfl⟩
  | openState => exact ⟨⟨rfl, rfl, rfl, nofun⟩, .nothing rfl rfl rfl⟩
  | @desc _ keyword text =>
      refine ⟨held.onBlock (fun _ => rfl) (fun _ => rfl) (fun old body hState => ?_)
        (fun old body _ => ?_), .nothing rfl rfl rfl⟩
      · rw [body.state_addDesc, ← hState]
        rfl
      · simp [OpenBlock.describe, Body.addDesc]
  | @action _ call hGoto hAllowed =>
      refine ⟨held.onBlock (fun _ => rfl) (fun _ => rfl) (fun old body hState => ?_)
        (fun _ _ hDescribed => hDescribed), .nothing rfl rfl rfl⟩
      rw [body.state_addAction hGoto, ← hState]
      rfl
  | @rule _ call target hGoto =>
      refine ⟨held.onBlock (fun _ => rfl) (fun _ => rfl) (fun old body hState => ?_)
        (fun _ _ hDescribed => hDescribed), .nothing rfl rfl rfl⟩
      rw [body.state_addRule hGoto, ← hState]
      rfl
  | closeNone =>
      cases body with
      | none => exact ⟨trivial, .nothing rfl rfl rfl⟩
      | some body => exact held.elim
  | @closeMain current hBlock =>
      cases body with
      | none => exact held.elim
      | some body =>
          obtain ⟨hSame, hState, _, hMain⟩ := held
          have hIsMain : body.block = .main := hSame ▸ hBlock
          refine ⟨trivial, ?_, ?_, ?_⟩
          · simp [Body.closed, CallBlock.isMain, hIsMain, hMain hIsMain, hState]
          · simp [Body.closed, CallBlock.isMain, hIsMain]
          · simp [Event.random?]
  | @closeState current name hBlock hFresh =>
      cases body with
      | none => exact held.elim
      | some body =>
          obtain ⟨hSame, hState, _, _⟩ := held
          have hIsState : body.block = .state name := hSame ▸ hBlock
          refine ⟨trivial, ?_, ?_, ?_⟩
          · simp [Body.closed, CallBlock.isMain, hIsState]
          · simp [Body.closed, CallBlock.isMain, hIsState, hState]
          · simp [Event.random?]
  | random hFresh => refine ⟨held, ⟨?_, ?_, ?_⟩⟩ <;> simp [Body.closed, Event.random?]

/-- A run gains the blocks of its events. The induction is on the run, and the block that is open
is the one that the events since its brace describe. -/
theorem Run.gainsBodies {quest quest' : Quest} {current current' : Option OpenBlock}
    {body : Option Body} {events : List Event}
    (run : Run schema quest current events quest' current') (held : Held schema quest current body) :
    GainsBodies schema quest (bodies body events) (events.filterMap Event.random?) quest' := by
  induction run generalizing body with
  | nil => exact .nothing rfl rfl rfl
  | @cons _ _ _ _ _ _ event events first rest ih =>
      obtain ⟨heldNext, gains⟩ := first.gainsBodies held
      rw [bodies, show (event :: events).filterMap Event.random? =
        event.random?.toList ++ events.filterMap Event.random? by
          cases h : event.random? <;> simp [h]]
      exact gains.append (ih heldNext)

/-- A quest has gained the calls of blocks at its end, and random blocks. -/
structure Gains (schema : Schema) (quest : Quest) (blocks : List CallBlock)
    (random : List RandomBlock) (quest' : Quest) : Prop where
  main : quest'.main.toList.map State.statements = quest.main.toList.map State.statements ++
    (blocks.filter CallBlock.isMain).map (CallBlock.statements schema)
  states : quest'.states.map State.statements = quest.states.map State.statements ++
    (blocks.filter fun block => !block.isMain).map (CallBlock.statements schema)
  random : quest'.random = quest.random ++ random

/-- The grouping of calls forgets the descriptions of a body and nothing else about its calls. -/
theorem Body.map_toCallBlock_after (body : Option Body) (event : Event) :
    (Body.after body event).map toCallBlock =
      CallBlock.after (body.map toCallBlock) event := by
  cases event <;> cases body <;> rfl

theorem Body.map_toCallBlock_closed (body : Option Body) (event : Event) :
    (Body.closed body event).map toCallBlock =
      CallBlock.closed (body.map toCallBlock) event := by
  cases event <;> rfl

/-- The blocks of a script are the same with and without their descriptions. -/
theorem callBlocks_eq (body : Option Body) (events : List Event) :
    callBlocks (body.map Body.toCallBlock) events = (bodies body events).map Body.toCallBlock := by
  induction events generalizing body with
  | nil => rfl
  | cons event events ih =>
      rw [callBlocks, bodies, List.map_append, ← ih, Body.map_toCallBlock_after,
        ← Body.map_toCallBlock_closed, Option.toList_map]

/-- Where no block is open, a quest gains the calls of the blocks that come. -/
theorem Run.gains {quest quest' : Quest} {current : Option OpenBlock} {events : List Event}
    (run : Run schema quest none events quest' current) :
    Gains schema quest (callBlocks none events) (events.filterMap Event.random?) quest' := by
  have held : Held schema quest none none := trivial
  have gains := run.gainsBodies held
  have hBlocks : callBlocks none events = (bodies none events).map Body.toCallBlock :=
    callBlocks_eq none events
  refine ⟨?_, ?_, gains.random⟩
  · rw [gains.main, hBlocks, List.filter_map, List.map_append, List.map_map, List.map_map]
    rfl
  · rw [gains.states, hBlocks, List.filter_map, List.map_append, List.map_map, List.map_map]
    rfl

end

/-! ### The tokens of a script -/

/-- A block is open exactly inside of the blocks. -/
def Scope.Agrees (scope : Scope) (group : Option CallBlock) : Prop :=
  match scope, group with
  | .top, none => True
  | .inside _ _, some _ => True
  | _, _ => False

def heldCalls (group : Option CallBlock) : List Call := (group.map CallBlock.calls).getD []

/-- An event keeps count of the calls and the blocks that are open or closed. -/
theorem Script.EventSpelled.counts {scope scope' : Scope} {event : Event} {tokens : List Token}
    {group : Option CallBlock} (spelled : Script.EventSpelled scope event tokens scope')
    (hAgrees : Scope.Agrees scope group) :
    Scope.Agrees scope' (CallBlock.after group event) ∧
      (CallBlock.closed group event).toList.flatMap CallBlock.calls ++
        heldCalls (CallBlock.after group event) = heldCalls group ++ event.call?.toList ∧
      (CallBlock.closed group event).toList.length + event.random?.toList.length =
        event.marks .rbrace ∧
      (CallBlock.after group event).toList.length + event.marks .rbrace =
        group.toList.length + event.marks .lbrace ∧
      event.call?.toList.length = event.marks .lparen := by
  cases spelled with
  | attr hKey hScope spelledValue spelledEnd =>
      simp [CallBlock.after, CallBlock.closed, Event.call?, Event.random?, Event.marks, hAgrees]
  | openMain hOpener hBrace =>
      cases group with
      | none => exact ⟨trivial, rfl, rfl, rfl, rfl⟩
      | some group => exact hAgrees.elim
  | openState hOpener hName hBrace =>
      cases group with
      | none => exact ⟨trivial, rfl, rfl, rfl, rfl⟩
      | some group => exact hAgrees.elim
  | desc hKeyword hText spelledEnd =>
      simp [CallBlock.after, CallBlock.closed, Event.call?, Event.random?, Event.marks, hAgrees]
  | call hFront hName hCall hParen spelledArgs spelledGoto spelledEnd =>
      cases group with
      | none => exact hAgrees.elim
      | some group => exact ⟨trivial, rfl, rfl, rfl, rfl⟩
  | close hBrace =>
      cases group with
      | none => exact hAgrees.elim
      | some group =>
          simp [CallBlock.after, CallBlock.closed, Event.call?, Event.random?, Event.marks,
            heldCalls, Scope.Agrees]
  | random hOpener hName hBrace spelled =>
      simp [CallBlock.after, CallBlock.closed, Event.call?, Event.random?, Event.marks, hAgrees]

/-- The calls of a script are those of its blocks, in order. -/
theorem Script.ScriptSpelled.flatMap_calls {scope : Scope} {events : List Event}
    {tokens : List Token} {group : Option CallBlock} (spelled : ScriptSpelled scope events tokens)
    (hAgrees : Scope.Agrees scope group) :
    (callBlocks group events).flatMap CallBlock.calls =
      heldCalls group ++ events.filterMap Event.call? := by
  induction spelled generalizing group with
  | finished hFinal =>
      cases group with
      | none => rfl
      | some group => exact hAgrees.elim
  | skip hKind rest ih => exact ih hAgrees
  | @event _ _ event events _ _ first rest ih =>
      obtain ⟨hNext, hCalls, _⟩ := first.counts hAgrees
      rw [callBlocks, List.flatMap_append, ih hNext, ← List.append_assoc, hCalls,
        List.append_assoc]
      cases h : event.call? <;> simp [h]

/-- The blocks of a script are as many as its closing braces, and, with the one that is open, as
many as its opening braces. -/
theorem Script.ScriptSpelled.length_callBlocks {scope : Scope} {events : List Event}
    {tokens : List Token} {group : Option CallBlock} (spelled : ScriptSpelled scope events tokens)
    (hAgrees : Scope.Agrees scope group) :
    (callBlocks group events).length + (events.filterMap Event.random?).length =
        (events.map (Event.marks .rbrace)).sum ∧
      (events.map (Event.marks .rbrace)).sum =
        group.toList.length + (events.map (Event.marks .lbrace)).sum := by
  induction spelled generalizing group with
  | finished hFinal =>
      cases group with
      | none => exact ⟨rfl, rfl⟩
      | some group => exact hAgrees.elim
  | skip hKind rest ih => exact ih hAgrees
  | @event _ _ event events _ _ first rest ih =>
      obtain ⟨hNext, _, hClosed, hOpened, _⟩ := first.counts hAgrees
      obtain ⟨hLength, hMarks⟩ := ih hNext
      have hRandom : ((event :: events).filterMap Event.random?).length =
          event.random?.toList.length + (events.filterMap Event.random?).length := by
        cases h : event.random? <;> simp [h, Nat.add_comm]
      rw [callBlocks, List.length_append, List.map_cons, List.map_cons, List.sum_cons,
        List.sum_cons, hRandom]
      omega

/-- Each call has one parenthesis before its arguments and no other token of a script has one, so
counting parentheses counts calls. -/
theorem Script.ScriptSpelled.length_calls {scope : Scope} {events : List Event}
    {tokens : List Token} {group : Option CallBlock} (spelled : ScriptSpelled scope events tokens)
    (hAgrees : Scope.Agrees scope group) :
    (events.filterMap Event.call?).length = (events.map (Event.marks .lparen)).sum := by
  induction spelled generalizing group with
  | finished hFinal => rfl
  | skip hKind rest ih => exact ih hAgrees
  | @event _ _ event events _ _ first rest ih =>
      obtain ⟨hNext, _, _, _, hMarks⟩ := first.counts hAgrees
      rw [List.map_cons, List.sum_cons, ← ih hNext, ← hMarks]
      cases h : event.call? <;> simp [h, Nat.add_comm]

/-- A call of a block is an action or a rule, and never both. -/
theorem CallBlock.length_calls (schema : Schema) (block : CallBlock) :
    (block.actions schema).length + (block.rules schema).length = block.calls.length := by
  obtain ⟨_, calls⟩ := block
  induction calls with
  | nil => rfl
  | cons call calls ih =>
      simp only [actions, rules] at ih ⊢
      cases hGoto : call.goto <;> simp [hGoto] <;> simp at ih <;> omega

/-- The blocks of a quest have as many actions and rules as those of its script have calls. -/
theorem sum_size_of_statements {schema : Schema} {states : List State} {blocks : List CallBlock}
    (hStatements : states.map State.statements = blocks.map (CallBlock.statements schema)) :
    (states.map State.size).sum = (blocks.flatMap CallBlock.calls).length := by
  have hSizes := congrArg
    (List.map fun statements : String × List Action × List Rule =>
      statements.2.1.length + statements.2.2.length) hStatements
  simp only [List.map_map] at hSizes
  rw [List.length_flatMap]
  refine congrArg List.sum (Eq.trans hSizes ?_)
  exact List.map_congr_left fun block _ => block.length_calls schema

/-- Sorting blocks into main blocks and states loses no call. -/
theorem length_flatMap_filter_isMain (blocks : List CallBlock) :
    ((blocks.filter CallBlock.isMain).flatMap CallBlock.calls).length +
      ((blocks.filter fun block => !block.isMain).flatMap CallBlock.calls).length =
        (blocks.flatMap CallBlock.calls).length := by
  induction blocks with
  | nil => rfl
  | cons block blocks ih =>
      cases hMain : block.isMain <;> simp [hMain, ← ih] <;> omega

/-- A script that is read is read as a whole: no call, block or random block of it is lost, none is
made up, and their order is kept. -/
theorem Quest.parse_holdsAll {schema : Schema} {id : Number} {text : String} {quest : Quest}
    {warnings : List Warning} (hParse : Quest.parse schema id text = .ok (quest, warnings)) :
    ∃ tokens events, Script.tokenize text = .ok tokens ∧
      Outline.ofTokens tokens = ⟨events, none⟩ ∧ quest.HoldsAll schema events tokens := by
  obtain ⟨tokens, events, current, hTokens, hOutline, run⟩ := Quest.parse_ok_iff.1 ⟨_, hParse⟩
  have spelled := Script.outlineFrom_spelled (Script.tokenize_complete hTokens) hOutline
  have hAgrees : Scope.Agrees .top none := trivial
  have gains := run.gains
  have hMain : quest.main.toList.map State.statements =
      ((callBlocks none events).filter CallBlock.isMain).map (CallBlock.statements schema) :=
    gains.main
  have hStates : quest.states.map State.statements =
      ((callBlocks none events).filter fun block => !block.isMain).map
        (CallBlock.statements schema) := gains.states
  have hRandom : quest.random = events.filterMap Event.random? := gains.random
  have hLength : quest.states.length + quest.random.length + quest.main.toList.length =
      (callBlocks none events).length + (events.filterMap Event.random?).length := by
    have hMainLength := congrArg List.length hMain
    have hStatesLength := congrArg List.length hStates
    have hBoth := List.length_eq_length_filter_add (l := callBlocks none events) CallBlock.isMain
    simp only [List.length_map] at hMainLength hStatesLength
    rw [hRandom]
    omega
  obtain ⟨hClosed, hOpened⟩ := spelled.length_callBlocks hAgrees
  refine ⟨tokens, events, hTokens, hOutline, spelled, hMain, hStates, hRandom, ?_, ?_, ?_⟩
  · rw [spelled.countKind_eq rfl (by decide), ← spelled.length_calls hAgrees, Quest.blocks,
      List.map_append, List.sum_append, sum_size_of_statements hMain,
      sum_size_of_statements hStates, length_flatMap_filter_isMain,
      spelled.flatMap_calls hAgrees]
    rfl
  · rw [spelled.countKind_eq rfl (by decide), hLength, hClosed, hOpened]
    simp
  · rw [spelled.countKind_eq rfl (by decide), hLength, hClosed]

/-- A script with a main block, a state, and a rule among its actions. The actions, the rules and
the counts of tokens are written out here, and the events are those of the script. -/
theorem Quest.parse_holdsAll_sample :
    let text := "main \x7b Say(1); \x7d state A \x7b Go() goto A Say(2, \"x\") \x7d"
    let quest : Quest :=
      { Quest.blank 7 with
        main := some ⟨"Main", "", [⟨"Say", [.int 1], "Say(1);"⟩], []⟩
        states := [⟨"A", "", [⟨"Say", [.int 2, .quoted "x"], "Say(2, \"x\");"⟩],
          [⟨"Go", [], "A", "Go() goto A"⟩]⟩] }
    ∃ warnings tokens events, Quest.parse Schema.empty 7 text = .ok (quest, warnings) ∧
      Script.tokenize text = .ok tokens ∧ quest.HoldsAll Schema.empty events tokens ∧
      countKind .lparen tokens = 3 ∧ countKind .lbrace tokens = 2 := by
  intro text quest
  have hParse : Quest.parse Schema.empty 7 text =
      .ok (quest, [.unknownAction 1 "Say", .unknownRule 1 "Go", .unknownAction 1 "Say"]) := by
    decide +kernel
  obtain ⟨tokens, events, hTokens, _, hHolds⟩ := Quest.parse_holdsAll hParse
  exact ⟨_, tokens, events, hParse, hTokens, hHolds, hHolds.calls, hHolds.opened⟩

end QuestScript

import QuestScript.Proofs.Script.Layout
import QuestScript.Script.Outline
import Mathlib.Data.List.Forall2
/-!
Columns in scripts. The column of a token counts in one place only: where several tokens make up one
argument, those that touch are joined without a space. So tokens that are moved along their lines,
but touch where they touched before, are read as the same events up to columns, or have the same
fault on the same line.

This is a statement about two runs of the reader. They go step by step in parallel, since each step
looks at what both token sequences have in common.
-/

namespace QuestScript.Script

/-! ### Tokens in other columns -/

def Token.movedTo (token : Token) (column : Nat) : Token := { token with column }

section

variable (token : Token) (column : Nat)

@[simp] theorem Token.movedTo_kind : (token.movedTo column).kind = token.kind := rfl

@[simp] theorem Token.movedTo_value : (token.movedTo column).value = token.value := rfl

@[simp] theorem Token.movedTo_line : (token.movedTo column).line = token.line := rfl

@[simp] theorem Token.movedTo_isArgument :
    (token.movedTo column).isArgument = token.isArgument := rfl

end

/-- An argument that comes after an argument stands apart from it in both of two sequences, or in
neither. -/
def SameGap (token token' : Token) (tokens tokens' : List Token) : Prop :=
  ∀ next ∈ tokens.head?, ∀ next' ∈ tokens'.head?, token.isArgument = true →
    next.isArgument = true → (token.Apart next ↔ token'.Apart next')

/-- Two token sequences side by side: the tokens differ in their columns only, and the same arguments
stand apart from the argument before them. -/
inductive Aligned : List Token → List Token → Prop where
  | nil : Aligned [] []
  | cons {token : Token} {tokens tokens' : List Token} (column : Nat)
      (hGap : SameGap token (token.movedTo column) tokens tokens') (rest : Aligned tokens tokens') :
      Aligned (token :: tokens) (token.movedTo column :: tokens')

/-- Two faults that read alike but for the column. -/
structure Malformed.Alike (fault fault' : Malformed) : Prop where
  reason : fault.reason = fault'.reason
  line : fault.line = fault'.line

/-- Two results that agree: related values, or faults that read alike. -/
inductive Agree {α β : Type} (Same : α → β → Prop) : Except Malformed α → Except Malformed β → Prop where
  | ok {a : α} {b : β} (same : Same a b) : Agree Same (.ok a) (.ok b)
  | error {fault fault' : Malformed} (alike : fault.Alike fault') :
      Agree Same (.error fault) (.error fault')

/-- Two readings that agree: related values, with the tokens that are left side by side. -/
def ReadAlike {α β : Type} (Same : α → β → Prop) (reading : Reading α) (reading' : Reading β) : Prop :=
  Agree (fun left right => Same left.1 right.1 ∧ Aligned left.2 right.2) reading reading'

/-- Two choices by one test are related if they are in either case. -/
theorem ite_related {α β : Type} {Related : α → β → Prop} {test : Prop} [Decidable test]
    {yes no : α} {yes' no' : β} (hYes : test → Related yes yes') (hNo : ¬test → Related no no') :
    Related (if test then yes else no) (if test then yes' else no') := by
  by_cases hTest : test
  · rw [if_pos hTest, if_pos hTest]
    exact hYes hTest
  · rw [if_neg hTest, if_neg hTest]
    exact hNo hTest

namespace Aligned

variable {tokens tokens' : List Token}

theorem tail (aligned : Aligned tokens tokens') : Aligned tokens.tail tokens'.tail := by
  cases aligned with
  | nil => exact Aligned.nil
  | cons column hGap rest => exact rest

theorem nextToken (aligned : Aligned tokens tokens') :
    ∃ column, Script.nextToken tokens' = (Script.nextToken tokens).movedTo column := by
  cases aligned with
  | nil => exact ⟨0, rfl⟩
  | cons column hGap rest => exact ⟨column, rfl⟩

theorem skipSemicolon (aligned : Aligned tokens tokens') :
    Aligned (Script.skipSemicolon tokens) (Script.skipSemicolon tokens') := by
  cases aligned with
  | nil => exact Aligned.nil
  | cons column hGap rest =>
      exact ite_related (fun _ => rest) fun _ => Aligned.cons column hGap rest

theorem startsSemicolon (aligned : Aligned tokens tokens') :
    Script.startsSemicolon tokens = Script.startsSemicolon tokens' := by
  obtain ⟨column, hNext⟩ := aligned.nextToken
  rw [Script.startsSemicolon, Script.startsSemicolon, hNext, Token.movedTo_kind]

theorem dropWhile_isArgument (aligned : Aligned tokens tokens') :
    Aligned (tokens.dropWhile Token.isArgument) (tokens'.dropWhile Token.isArgument) := by
  induction aligned with
  | nil => exact Aligned.nil
  | cons column hGap rest ih =>
      rw [List.dropWhile_cons, List.dropWhile_cons, Token.movedTo_isArgument]
      exact ite_related (fun _ => ih) fun _ => Aligned.cons column hGap rest

/-- Tokens of one argument are joined in the same way. This is where the columns are looked at. -/
theorem joinAfter {token token' : Token} (hToken : token.isArgument = true)
    (hGap : SameGap token token' tokens tokens') (aligned : Aligned tokens tokens') :
    Script.joinAfter token (tokens.takeWhile Token.isArgument) =
      Script.joinAfter token' (tokens'.takeWhile Token.isArgument) := by
  induction aligned generalizing token token' with
  | nil => rfl
  | @cons next more more' column hNextGap rest ih =>
      by_cases hArgument : next.isArgument = true
      · have hApart : token.Apart next ↔ token'.Apart (next.movedTo column) :=
          hGap next rfl (next.movedTo column) rfl hToken hArgument
        have hSpace : (if token.Apart next then " " else "") =
            if token'.Apart (next.movedTo column) then " " else "" := by
          simp only [hApart]
        rw [List.takeWhile_cons_of_pos hArgument, List.takeWhile_cons_of_pos (by exact hArgument)]
        exact congrArg₂ (· ++ ·) (congrArg (· ++ next.sourceText) hSpace) (ih hArgument hNextGap)
      · rw [List.takeWhile_cons_of_neg hArgument, List.takeWhile_cons_of_neg (by exact hArgument)]
        rfl

/-- The first argument is made up from the same texts. -/
theorem argument {token : Token} {column : Nat} (hToken : token.isArgument = true)
    (hGap : SameGap token (token.movedTo column) tokens tokens') (aligned : Aligned tokens tokens') :
    Arg.ofTokens token (tokens.takeWhile Token.isArgument) =
      Arg.ofTokens (token.movedTo column) (tokens'.takeWhile Token.isArgument) := by
  have hEmpty : (tokens.takeWhile Token.isArgument).isEmpty =
      (tokens'.takeWhile Token.isArgument).isEmpty := by
    cases aligned with
    | nil => rfl
    | cons column _ _ =>
        rw [List.takeWhile_cons, List.takeWhile_cons, Token.movedTo_isArgument]
        split <;> rfl
  unfold Arg.ofTokens
  rw [hEmpty, aligned.joinAfter hToken hGap]
  rfl

end Aligned

/-! ### Reading -/

/-- The arguments from a token on, with the rest of the first one taken off. -/
theorem readArguments_cons (call first : Token) (rest : List Token) :
    readArguments call (first :: rest) =
      if first.isArgument = true then
        match rest.dropWhile Token.isArgument with
        | [] => .error (.atToken (.missingParen call.value) call)
        | token :: rest' =>
          if token.kind = .rparen then
            .ok ([Arg.ofTokens first (rest.takeWhile Token.isArgument)], rest')
          else if token.kind = .comma then
            match readArguments call rest' with
            | .error fault => .error fault
            | .ok (args, final) =>
              .ok (Arg.ofTokens first (rest.takeWhile Token.isArgument) :: args, final)
          else .error (.atToken (.missingParen call.value) call)
      else .error (.atToken (.expected (.argumentTo call.value) first) first) := by
  rw [readArguments]
  by_cases hFirst : first.isArgument = true
  · rw [if_neg (by simp [hFirst]), if_pos hFirst]
    cases rest.dropWhile Token.isArgument with
    | nil => rfl
    | cons token rest' => rfl
  · rw [if_pos (by simp [hFirst]), if_neg hFirst]

/-- Arguments are read alike from tokens side by side. What decides is which of them touch, and
that is the same. -/
theorem readArguments_alike (call : Token) (column : Nat) {tokens tokens' : List Token}
    (aligned : Aligned tokens tokens') :
    ReadAlike Eq (readArguments call tokens) (readArguments (call.movedTo column) tokens') := by
  induction hLength : tokens.length using Nat.strongRecOn generalizing tokens tokens' with
  | ind length ih =>
      cases aligned with
      | nil =>
          rw [readArguments, readArguments]
          exact Agree.error ⟨rfl, rfl⟩
      | @cons first rest rest' firstColumn hGap aligned =>
          rw [readArguments_cons, readArguments_cons, Token.movedTo_isArgument]
          have hShort := (List.dropWhile_sublist (l := rest) Token.isArgument).length_le
          have hMore := aligned.dropWhile_isArgument
          refine ite_related (fun hFirst => ?_) fun _ => Agree.error ⟨rfl, rfl⟩
          rw [← aligned.argument hFirst hGap]
          generalize rest.dropWhile Token.isArgument = more at hMore hShort
          generalize rest'.dropWhile Token.isArgument = more' at hMore
          cases hMore with
          | nil => exact Agree.error ⟨rfl, rfl⟩
          | @cons mark more more' markColumn _ aligned =>
              refine ite_related (fun _ => Agree.ok ⟨rfl, aligned⟩) fun _ => ?_
              refine ite_related (fun _ => ?_) fun _ => Agree.error ⟨rfl, rfl⟩
              have hLess : more.length < length := by
                rw [List.length_cons] at hShort hLength
                omega
              have hNext := ih more.length hLess aligned rfl
              revert hNext
              generalize readArguments call more = reading
              generalize readArguments (call.movedTo column) more' = reading'
              rintro (⟨hArgs, hFinal⟩ | alike)
              · exact Agree.ok ⟨congrArg (_ :: ·) hArgs, hFinal⟩
              · exact Agree.error alike

/-- The same holds of the list with its parenthesis. -/
theorem readArgumentList_alike (call : Token) (column : Nat) {tokens tokens' : List Token}
    (aligned : Aligned tokens tokens') :
    ReadAlike Eq (readArgumentList call tokens)
      (readArgumentList (call.movedTo column) tokens') := by
  cases aligned with
  | nil => exact readArguments_alike call column .nil
  | cons markColumn hGap aligned =>
      exact ite_related (fun _ => Agree.ok ⟨rfl, aligned⟩) fun _ =>
        readArguments_alike call column (.cons markColumn hGap aligned)

theorem readGoto_alike (call : Token) (column : Nat) {tokens tokens' : List Token}
    (aligned : Aligned tokens tokens') :
    ReadAlike Eq (readGoto call tokens) (readGoto (call.movedTo column) tokens') := by
  cases aligned with
  | nil => exact Agree.ok ⟨rfl, .nil⟩
  | cons keywordColumn hGap aligned =>
      refine ite_related (fun _ => ?_) fun _ => Agree.ok ⟨rfl, .cons keywordColumn hGap aligned⟩
      cases aligned with
      | nil => exact Agree.error ⟨rfl, rfl⟩
      | cons targetColumn _ aligned =>
          exact ite_related (fun _ => Agree.ok ⟨rfl, aligned⟩) fun _ => Agree.error ⟨rfl, rfl⟩

def Call.movedTo (call : Call) (column : Nat) : Call :=
  { call with name := call.name.movedTo column }

/-- A call is read alike from tokens side by side, but for the column of its name. -/
theorem readCall_alike (name : Token) (column : Nat) {tokens tokens' : List Token}
    (aligned : Aligned tokens tokens') :
    ReadAlike (fun call call' => call' = call.movedTo column) (readCall name tokens)
      (readCall (name.movedTo column) tokens') := by
  have hArgs := readArgumentList_alike name column aligned
  unfold readCall
  revert hArgs
  generalize readArgumentList name tokens = reading
  generalize readArgumentList (name.movedTo column) tokens' = reading'
  rintro (@⟨⟨args, afterArgs⟩, ⟨_, afterArgs'⟩, rfl, aligned⟩ | alike)
  · have hGoto := readGoto_alike name column aligned
    dsimp only
    revert hGoto
    generalize readGoto name afterArgs = reading
    generalize readGoto (name.movedTo column) afterArgs' = reading'
    rintro (@⟨⟨goto, rest⟩, ⟨_, rest'⟩, rfl, aligned⟩ | alike)
    · refine Agree.ok ⟨?_, aligned.skipSemicolon⟩
      simp only [Call.movedTo, aligned.startsSemicolon]
    · exact Agree.error alike
  · exact Agree.error alike

/-- Two events that differ in the columns of their tokens only. -/
inductive Event.Alike : Event → Event → Prop where
  | attr (key : Token) (column : Nat) (value : Option Arg) :
      Alike (.attr key value) (.attr (key.movedTo column) value)
  | openMain (opener : Token) (column : Nat) :
      Alike (.openMain opener) (.openMain (opener.movedTo column))
  | openState (opener : Token) (column : Nat) (name : String) :
      Alike (.openState opener name) (.openState (opener.movedTo column) name)
  | desc (keyword : Token) (column : Nat) (text : String) :
      Alike (.desc keyword text) (.desc (keyword.movedTo column) text)
  | call (made : Call) (column : Nat) : Alike (.call made) (.call (made.movedTo column))
  | close : Alike .close .close
  | random (opener : Token) (column : Nat) (name : String) (targets : List (String × Int)) :
      Alike (.random opener name targets) (.random (opener.movedTo column) name targets)

theorem callEvent_alike (name : Token) (column : Nat) {tokens tokens' : List Token}
    (aligned : Aligned tokens tokens') :
    ReadAlike Event.Alike (callEvent (readCall name tokens))
      (callEvent (readCall (name.movedTo column) tokens')) := by
  have hCall := readCall_alike name column aligned
  revert hCall
  generalize readCall name tokens = reading
  generalize readCall (name.movedTo column) tokens' = reading'
  rintro (@⟨⟨call, rest⟩, ⟨_, rest'⟩, rfl, aligned⟩ | alike)
  · exact Agree.ok ⟨.call call column, aligned⟩
  · exact Agree.error alike

/-- A value of an attribute is read alike. -/
theorem readValue_alike (key : Token) (column : Nat) {tokens tokens' : List Token}
    (aligned : Aligned tokens tokens') :
    ReadAlike Eq (readValue key tokens) (readValue (key.movedTo column) tokens') := by
  cases aligned with
  | nil => exact Agree.ok ⟨rfl, .nil⟩
  | cons tokenColumn hGap aligned =>
      refine ite_related (fun _ => ?_) fun _ => ?_
      · cases aligned with
        | nil => exact Agree.error ⟨rfl, rfl⟩
        | cons valueColumn _ aligned =>
            exact ite_related (fun _ => Agree.ok ⟨rfl, aligned⟩) fun _ => Agree.error ⟨rfl, rfl⟩
      · exact ite_related (fun _ => Agree.ok ⟨rfl, aligned⟩) fun _ =>
          Agree.ok ⟨rfl, .cons tokenColumn hGap aligned⟩

theorem readAttribute_alike (key : Token) (column : Nat) {tokens tokens' : List Token}
    (aligned : Aligned tokens tokens') :
    ReadAlike Event.Alike (readAttribute key tokens)
      (readAttribute (key.movedTo column) tokens') := by
  have hValue := readValue_alike key column aligned
  unfold readAttribute
  revert hValue
  generalize readValue key tokens = reading
  generalize readValue (key.movedTo column) tokens' = reading'
  rintro (@⟨⟨value, rest⟩, ⟨_, rest'⟩, rfl, aligned⟩ | alike)
  · exact Agree.ok ⟨.attr key column value, aligned.skipSemicolon⟩
  · exact Agree.error alike

theorem readWeight_alike (target : Token) (column : Nat) {tokens tokens' : List Token}
    (aligned : Aligned tokens tokens') :
    ReadAlike Eq (readWeight target tokens) (readWeight (target.movedTo column) tokens') := by
  cases aligned with
  | nil => exact Agree.ok ⟨rfl, .nil⟩
  | cons weightColumn hGap aligned =>
      refine ite_related (fun _ => ?_) fun _ => Agree.ok ⟨rfl, .cons weightColumn hGap aligned⟩
      rw [Token.movedTo_value]
      cases Integer.leadingInFault? _ with
      | some fault => exact Agree.error ⟨rfl, rfl⟩
      | none => exact ite_related (fun _ => Agree.error ⟨rfl, rfl⟩) fun _ => Agree.ok ⟨rfl, aligned⟩

/-- The targets of a random block from a token on. -/
theorem readTargets_cons (opener token : Token) (block : String) (rest : List Token) :
    readTargets opener block (token :: rest) =
      if token.kind = .rbrace then .ok ([], rest)
      else if token.kind = .eof then .error (.atToken (.randomNeverClosed block) opener)
      else if token.kind = .semi || token.kind = .comma then readTargets opener block rest
      else if token.isName then
        match readWeight token rest with
        | .error fault => .error fault
        | .ok (weight, rest') =>
          match readTargets opener block rest' with
          | .error fault => .error fault
          | .ok (targets, final) => .ok ((token.value, weight) :: targets, final)
      else .error (.atToken (.expected (.targetIn block) token) token) := by
  rw [readTargets]
  cases hWeight : readWeight token rest with
  | error fault => rfl
  | ok reading => rfl

/-- The targets of a random block are read alike, and so are its faults. -/
theorem readTargets_alike (opener : Token) (column : Nat) (block : String)
    {tokens tokens' : List Token} (aligned : Aligned tokens tokens') :
    ReadAlike Eq (readTargets opener block tokens)
      (readTargets (opener.movedTo column) block tokens') := by
  induction hLength : tokens.length using Nat.strongRecOn generalizing tokens tokens' with
  | ind length ih =>
      cases aligned with
      | nil =>
          rw [readTargets, readTargets]
          exact Agree.error ⟨rfl, rfl⟩
      | @cons token rest rest' tokenColumn hGap aligned =>
          have hLess : rest.length < length := by
            rw [List.length_cons] at hLength
            omega
          rw [readTargets_cons, readTargets_cons]
          refine ite_related (fun _ => Agree.ok ⟨rfl, aligned⟩) fun _ => ?_
          refine ite_related (fun _ => Agree.error ⟨rfl, rfl⟩) fun _ => ?_
          refine ite_related (fun _ => ih rest.length hLess aligned rfl) fun _ => ?_
          refine ite_related (fun _ => ?_) fun _ => Agree.error ⟨rfl, rfl⟩
          have hWeight := readWeight_alike token tokenColumn aligned
          have hShort := @readWeight_length token rest
          revert hWeight hShort
          generalize readWeight token rest = reading
          generalize readWeight (token.movedTo tokenColumn) rest' = reading'
          rintro (@⟨⟨weight, more⟩, ⟨_, more'⟩, rfl, aligned⟩ | alike) hShort
          · have hNext := ih more.length (Nat.lt_of_le_of_lt (hShort rfl) hLess) aligned rfl
            dsimp only
            revert hNext
            generalize readTargets opener block more = reading
            generalize readTargets (opener.movedTo column) block more' = reading'
            rintro (@⟨⟨targets, final⟩, ⟨_, final'⟩, rfl, aligned⟩ | alike)
            · exact Agree.ok ⟨rfl, aligned⟩
            · exact Agree.error alike
          · exact Agree.error alike

theorem readRandom_alike (opener name : Token) (column nameColumn : Nat)
    {tokens tokens' : List Token} (aligned : Aligned tokens tokens') :
    ReadAlike Event.Alike (readRandom opener name tokens)
      (readRandom (opener.movedTo column) (name.movedTo nameColumn) tokens') := by
  cases aligned with
  | nil => exact Agree.error ⟨rfl, rfl⟩
  | @cons brace rest rest' braceColumn hGap aligned =>
      refine ite_related (fun _ => ?_) fun _ => Agree.error ⟨rfl, rfl⟩
      have hTargets := readTargets_alike opener column name.value aligned
      revert hTargets
      change ReadAlike Eq _ (readTargets _ name.value _) → _
      dsimp only [Token.movedTo_value]
      generalize readTargets opener name.value rest = reading
      generalize readTargets (opener.movedTo column) name.value rest' = reading'
      rintro (@⟨⟨targets, final⟩, ⟨_, final'⟩, rfl, aligned⟩ | alike)
      · exact Agree.ok ⟨.random opener column name.value targets, aligned⟩
      · exact Agree.error alike

/-! ### Steps -/

/-- Two scopes that differ in the columns of the openers only. -/
inductive Scope.Alike : Scope → Scope → Prop where
  | top : Alike .top .top
  | inside (block : Section) (opener : Token) (column : Nat) :
      Alike (.inside block opener) (.inside block (opener.movedTo column))

/-- Two steps that do alike, and leave the tokens side by side. -/
inductive Step.Alike : Step → Step → Prop where
  | finished : Alike .finished .finished
  | skip : Alike .skip .skip
  | event {event event' : Event} {scope scope' : Scope} {rest rest' : List Token}
      (hEvent : event.Alike event') (hScope : scope.Alike scope') (aligned : Aligned rest rest') :
      Alike (.event event scope rest) (.event event' scope' rest')
  | failure {fault fault' : Malformed} (hFault : fault.Alike fault') :
      Alike (.failure fault) (.failure fault')

/-- Readings that are alike make steps that are alike. -/
theorem Step.Alike.ofReading {scope scope' : Scope} {reading reading' : Reading Event}
    (hScope : scope.Alike scope') (hReading : ReadAlike Event.Alike reading reading') :
    (Step.ofReading scope reading).Alike (Step.ofReading scope' reading') := by
  obtain ⟨hEvent, aligned⟩ | hFault := hReading
  · exact Step.Alike.event hEvent hScope aligned
  · exact Step.Alike.failure hFault

theorem openState_alike (opener name : Token) (column nameColumn : Nat)
    {tokens tokens' : List Token} (aligned : Aligned tokens tokens') :
    (openState opener name tokens).Alike
      (openState (opener.movedTo column) (name.movedTo nameColumn) tokens') := by
  obtain ⟨braceColumn, hBrace⟩ := aligned.nextToken
  unfold openState
  rw [hBrace]
  refine ite_related (fun _ => ?_) fun _ => Step.Alike.failure ⟨rfl, rfl⟩
  exact Step.Alike.event (.openState opener column name.value)
    (.inside (.state name.value) opener column) aligned.tail

/-- Outside of the blocks tokens side by side give steps that are alike. One case for each
keyword. -/
theorem stepTop_alike (token : Token) (column : Nat) {rest rest' : List Token}
    (aligned : Aligned rest rest') :
    (stepTop token rest).Alike (stepTop (token.movedTo column) rest') := by
  obtain ⟨nextColumn, hNext⟩ := aligned.nextToken
  unfold stepTop
  rw [hNext]
  refine ite_related (fun _ => Step.Alike.finished) fun _ => ?_
  refine ite_related (fun _ => Step.Alike.skip) fun _ => ?_
  refine ite_related (fun _ => ?_) fun _ => ?_
  · exact Step.Alike.event (.openMain token column) (.inside .main token column) aligned.tail
  refine ite_related (fun _ => openState_alike token _ column nextColumn aligned.tail) fun _ => ?_
  refine ite_related (fun _ => ?_) fun _ => ?_
  · exact Step.Alike.ofReading .top
      (readRandom_alike token (nextToken rest) column nextColumn aligned.tail)
  refine ite_related (fun _ => ?_) fun _ => Step.Alike.failure ⟨rfl, rfl⟩
  exact Step.Alike.ofReading .top (readAttribute_alike token column aligned)

/-- Inside of a block they do so too. -/
theorem stepInside_alike (block : Section) (opener token : Token) (openerColumn column : Nat)
    {rest rest' : List Token} (aligned : Aligned rest rest') :
    (stepInside block opener token rest).Alike
      (stepInside block (opener.movedTo openerColumn) (token.movedTo column) rest') := by
  obtain ⟨nextColumn, hNext⟩ := aligned.nextToken
  obtain ⟨afterColumn, hAfter⟩ := aligned.tail.nextToken
  have hScope := Scope.Alike.inside block opener openerColumn
  unfold stepInside
  rw [hNext, hAfter]
  refine ite_related (fun _ => Step.Alike.event .close .top aligned) fun _ => ?_
  refine ite_related (fun _ => Step.Alike.failure ⟨rfl, rfl⟩) fun _ => ?_
  refine ite_related (fun _ => Step.Alike.skip) fun _ => ?_
  refine ite_related (fun _ => Step.Alike.failure ⟨rfl, rfl⟩) fun _ => ?_
  refine ite_related (fun _ => ?_) fun _ => ?_
  · exact Step.Alike.event (.desc token column _) hScope aligned.tail.skipSemicolon
  refine ite_related (fun _ => ?_) fun _ => ?_
  · exact Step.Alike.ofReading hScope
      (callEvent_alike (nextToken rest) nextColumn aligned.tail.tail)
  refine ite_related (fun _ => ?_) fun _ => ?_
  · exact Step.Alike.ofReading hScope (callEvent_alike token column aligned.tail)
  refine ite_related (fun _ => ?_) fun _ => Step.Alike.failure ⟨rfl, rfl⟩
  exact Step.Alike.ofReading hScope (readAttribute_alike token column aligned)

/-- One step does not look at columns, except at whether arguments touch. -/
theorem step_alike {scope scope' : Scope} (hScope : scope.Alike scope') (token : Token)
    (column : Nat) {rest rest' : List Token} (aligned : Aligned rest rest') :
    (step scope token rest).Alike (step scope' (token.movedTo column) rest') := by
  cases hScope with
  | top => exact stepTop_alike token column aligned
  | inside block opener openerColumn =>
      exact stepInside_alike block opener token openerColumn column aligned

/-- Two outlines with events that differ in columns only, and with no fault or faults that read
alike. -/
structure Outline.Alike (outline outline' : Outline) : Prop where
  events : List.Forall₂ Event.Alike outline.events outline'.events
  fault : Option.Rel Malformed.Alike outline.fault outline'.fault

/-- Tokens side by side have outlines that differ in columns only. -/
theorem outlineFrom_alike {scope scope' : Scope} (hScope : scope.Alike scope')
    {tokens tokens' : List Token} (aligned : Aligned tokens tokens') :
    (outlineFrom scope tokens).Alike (outlineFrom scope' tokens') := by
  induction hLength : tokens.length using Nat.strongRecOn generalizing scope scope' tokens tokens' with
  | ind length ih =>
      cases aligned with
      | nil =>
          rw [outlineFrom, outlineFrom]
          exact ⟨.nil, .none⟩
      | @cons token rest rest' column hGap aligned =>
          have hLess : rest.length < length := by
            rw [List.length_cons] at hLength
            omega
          have hStep := step_alike hScope token column aligned
          have hShort {event : Event} {scope'' : Scope} {final : List Token}
              (hTaken : step scope token rest = .event event scope'' final) :
              final.length < length :=
            Nat.lt_of_le_of_lt (step_event_length hTaken) hLess
          rw [outlineFrom_cons, outlineFrom_cons]
          revert hStep hShort
          generalize step scope token rest = taken
          generalize step scope' (token.movedTo column) rest' = taken'
          rintro (_ | _ | ⟨hEvent, hScope', aligned'⟩ | hFault) hShort
          · exact ⟨.nil, .none⟩
          · exact ih rest.length hLess hScope aligned rfl
          · have hRest := ih _ (hShort rfl) hScope' aligned' rfl
            exact ⟨.cons hEvent hRest.events, hRest.fault⟩
          · exact ⟨.nil, .some hFault⟩

/-! ### Scripts of one layout -/

/-- An argument begins where the argument before it ends. -/
def Token.Touches (previous token : Token) : Prop :=
  (previous.isArgument = true ∧ token.isArgument = true) ∧
    token.line = previous.line ∧ token.column = previous.endColumn

instance (previous token : Token) : Decidable (previous.Touches token) :=
  inferInstanceAs (Decidable (_ ∧ _))

/-- Which tokens are arguments that touch the one before them, from the second token on. -/
def touching : List Token → List Bool
  | previous :: token :: rest => decide (previous.Touches token) :: touching (token :: rest)
  | _ => []

theorem touching_tail (token : Token) (rest : List Token) :
    (touching (token :: rest)).tail = touching rest := by
  cases rest <;> rfl

/-- Two token sequences of the same classes, values and lines, in which the same arguments touch. -/
structure SameLayout (tokens tokens' : List Token) : Prop where
  words : tokens.map (fun token => (token.symbol, token.line)) =
    tokens'.map fun token => (token.symbol, token.line)
  touches : touching tokens = touching tokens'

/-- No token begins before the end of the one before it. -/
def Token.Clears (previous token : Token) : Prop :=
  token.BeginsFrom ⟨previous.line, previous.endColumn⟩

/-- Tokens that were read from a text lie one behind the other, never within each other. -/
theorem Lexed.clears {position : Position} {cs : List Char} {tokens : List Token}
    (lexed : Lexed position cs tokens) : tokens.IsChain Token.Clears := by
  induction lexed with
  | final position => exact List.isChain_singleton _
  | gap _ _ ih => exact ih
  | comment _ _ _ ih => exact ih
  | lexeme _ _ hLexeme more ih =>
      rw [List.isChain_cons]
      refine ⟨fun token hToken => ?_, ih⟩
      rw [lexeme?_advance hLexeme] at more
      exact more.begins token (List.mem_of_mem_head? hToken)

theorem tokenize_clears {text : String} {tokens : List Token}
    (hTokens : tokenize text = .ok tokens) : tokens.IsChain Token.Clears :=
  (tokensFrom_lexed hTokens).clears

/-- An argument on the line of the one before it touches it or stands further to the right. -/
theorem Token.apart_iff_not_touches {previous token : Token} (hClears : previous.Clears token)
    (hPrevious : previous.isArgument = true) (hToken : token.isArgument = true) :
    previous.Apart token ↔ ¬previous.Touches token := by
  simp only [Clears, BeginsFrom] at hClears
  simp only [Apart, Touches, hPrevious, hToken, true_and]
  omega

theorem Token.eq_movedTo {token token' : Token} (hSymbol : token'.symbol = token.symbol)
    (hLine : token'.line = token.line) : token' = token.movedTo token'.column := by
  obtain ⟨kind, value, line, column⟩ := token
  obtain ⟨kind', value', line', column'⟩ := token'
  cases hSymbol
  cases hLine
  rfl

/-- Tokens of one layout that were read from texts can be put side by side. -/
theorem SameLayout.aligned {tokens tokens' : List Token} (same : SameLayout tokens tokens')
    (hClears : tokens.IsChain Token.Clears) (hClears' : tokens'.IsChain Token.Clears) :
    Aligned tokens tokens' := by
  obtain ⟨hWords, hTouching⟩ := same
  induction tokens generalizing tokens' with
  | nil =>
      rw [List.map_nil, eq_comm, List.map_eq_nil_iff] at hWords
      rw [hWords]
      exact Aligned.nil
  | cons token rest ih =>
      obtain ⟨token', rest', rfl, hToken, hRest⟩ := List.map_eq_cons_iff.1 hWords.symm
      rw [Prod.mk.injEq] at hToken
      have hMoved := Token.eq_movedTo hToken.1 hToken.2
      generalize token'.column = column at hMoved
      subst hMoved
      have hTail := congrArg List.tail hTouching
      rw [touching_tail, touching_tail] at hTail
      refine Aligned.cons column ?_ (ih hClears.tail hClears'.tail hRest.symm hTail)
      intro next hNext next' hNext' hFirst hArgument
      obtain ⟨more, rfl⟩ := List.head?_eq_some_iff.1 hNext
      obtain ⟨more', rfl⟩ := List.head?_eq_some_iff.1 hNext'
      have hArgument' : next'.isArgument = true := by
        simp only [List.map_cons, List.cons.injEq, Prod.mk.injEq] at hRest
        rwa [Token.eq_movedTo hRest.1.1 hRest.1.2, Token.movedTo_isArgument]
      rw [touching, touching, List.cons.injEq, decide_eq_decide] at hTouching
      rw [Token.apart_iff_not_touches (List.isChain_cons_cons.1 hClears).1 hFirst hArgument,
        Token.apart_iff_not_touches (List.isChain_cons_cons.1 hClears').1 hFirst hArgument',
        hTouching.1]

/-! ### Lines further to the right -/

def Position.movedBy (position : Position) (steps : Nat) : Position :=
  ⟨position.line, position.column + steps⟩

def Token.movedBy (steps : Nat) (token : Token) : Token := token.movedTo (token.column + steps)

/-- On one line, to begin further to the right is to end further to the right. -/
theorem Position.advance_movedBy (position : Position) (steps : Nat) {cs : List Char}
    (hLine : ∀ c ∈ cs, c ≠ '\n') :
    (position.movedBy steps).advance cs = (position.advance cs).movedBy steps := by
  rw [Position.advance_of_no_lineFeed _ hLine, Position.advance_of_no_lineFeed _ hLine]
  exact congrArg (Position.mk position.line) (Nat.add_right_comm ..)

theorem Token.apart_movedBy (steps : Nat) (previous token : Token) :
    (previous.movedBy steps).Apart (token.movedBy steps) ↔ previous.Apart token := by
  change (token.line ≠ previous.line ∨
    token.column + steps > previous.column + steps + previous.sourceText.length) ↔ _
  simp only [Apart, Token.endColumn]
  omega

/-- Tokens that are moved all by the same number of columns touch where they touched before. -/
theorem Aligned.of_movedBy (steps : Nat) (tokens : List Token) :
    Aligned tokens (tokens.map (Token.movedBy steps)) := by
  induction tokens with
  | nil => exact Aligned.nil
  | cons token tokens ih =>
      refine Aligned.cons _ (fun next hNext next' hNext' _ _ => ?_) ih
      obtain ⟨more, rfl⟩ := List.head?_eq_some_iff.1 hNext
      obtain rfl : next.movedBy steps = next' := by simpa using hNext'
      exact (Token.apart_movedBy steps token next).symm

/-- A lexeme of a text without line feeds and the text behind it have none. -/
theorem lexeme?_lineFeed {c : Char} {rest : List Char} {lexeme : Lexeme}
    (hLexeme : lexeme? c rest = some lexeme) (hLine : ∀ d ∈ c :: rest, d ≠ '\n') :
    (∀ d ∈ lexeme.source, d ≠ '\n') ∧ ∀ d ∈ lexeme.rest, d ≠ '\n' := by
  rw [(lexeme?_shape hLexeme).2.2.2] at hLine
  exact List.forall_mem_append.1 hLine

/-- A text of one line has the same tokens further to the right, with their columns moved. -/
theorem tokensFrom_movedBy (steps : Nat) {position : Position} {cs : List Char}
    (hLine : ∀ c ∈ cs, c ≠ '\n') :
    Agree (fun tokens tokens' => tokens' = tokens.map (Token.movedBy steps))
      (tokensFrom position cs) (tokensFrom (position.movedBy steps) cs) := by
  fun_induction tokensFrom position cs with
  | case1 position =>
      rw [tokensFrom_nil]
      exact .ok rfl
  | case2 position c rest hGap ih =>
      obtain ⟨hChar, hRest⟩ := List.forall_mem_cons.1 hLine
      have hNext : (position.movedBy steps).next c = (position.next c).movedBy steps :=
        position.advance_movedBy steps (List.forall_mem_singleton.2 hChar)
      rw [tokensFrom_gap _ rest hGap, hNext]
      exact ih hRest
  | case3 position c rest hGap hComment ih =>
      obtain ⟨hChar, hRest⟩ := List.forall_mem_cons.1 hLine
      have hRemark : ∀ d ∈ c :: rest.takeWhile isCommentChar, d ≠ '\n' :=
        List.forall_mem_cons.2 ⟨hChar, fun d hMem => hRest d ((List.takeWhile_sublist _).mem hMem)⟩
      rw [tokensFrom_comment _ (by simpa using hGap) hComment, position.advance_movedBy steps hRemark]
      exact ih fun d hMem => hRest d ((List.dropWhile_sublist _).mem hMem)
  | case4 position c rest hGap hComment hNone =>
      rw [tokensFrom, if_neg hGap, if_neg hComment]
      split
      · exact .error ⟨rfl, rfl⟩
      · next hSome => simp [hNone] at hSome
  | case5 position c rest hGap hComment lexeme hLexeme fault hFault ih =>
      obtain ⟨hSource, hRest⟩ := lexeme?_lineFeed hLexeme hLine
      have hMoved := ih hRest
      rw [hFault, ← position.advance_movedBy steps hSource] at hMoved
      rw [tokensFrom_lexeme _ (by simpa using hGap) (by simpa using hComment) hLexeme]
      generalize tokensFrom _ lexeme.rest = read' at hMoved ⊢
      cases hMoved with
      | error alike => exact .error alike
  | case6 position c rest hGap hComment lexeme hLexeme tokens hTokens ih =>
      obtain ⟨hSource, hRest⟩ := lexeme?_lineFeed hLexeme hLine
      have hMoved := ih hRest
      rw [hTokens, ← position.advance_movedBy steps hSource] at hMoved
      rw [tokensFrom_lexeme _ (by simpa using hGap) (by simpa using hComment) hLexeme]
      generalize tokensFrom _ lexeme.rest = read' at hMoved ⊢
      cases hMoved with
      | ok hMore => exact .ok (congrArg (_ :: ·) hMore)

/-- Where a line begins makes no difference to what it is read as, but for the columns. -/
theorem tokensFrom_alike {cs : List Char} (hLine : ∀ c ∈ cs, c ≠ '\n') (line : Nat)
    {column column' : Nat} (hColumn : column ≤ column') :
    Agree Aligned (tokensFrom ⟨line, column⟩ cs) (tokensFrom ⟨line, column'⟩ cs) := by
  have hMoved := @tokensFrom_movedBy (column' - column) ⟨line, column⟩ cs hLine
  rw [Position.movedBy, Nat.add_sub_of_le hColumn] at hMoved
  generalize tokensFrom ⟨line, column⟩ cs = read at hMoved ⊢
  generalize tokensFrom ⟨line, column'⟩ cs = read' at hMoved ⊢
  rcases hMoved with hTokens | alike
  · exact .ok (hTokens ▸ Aligned.of_movedBy _ _)
  · exact .error alike

end QuestScript.Script

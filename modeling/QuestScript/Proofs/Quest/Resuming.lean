import QuestScript.Proofs.Quest.Reading
import QuestScript.Proofs.Script.Steps
/-!
Taking up the reading of a script in the middle. What has been read so far is a stage; the text that
is left leads from one stage to another as far as it is known, so a script can be read line by line.
-/

namespace QuestScript

open Script (Arg Call Event Malformed Outline Piece Position Scope Section Step Symbol Token WellLaid
  layout nextToken outlineFrom place tokensFrom)

/-- How far the reading of a script has come: outside of the blocks, or in one of them. -/
inductive Stage where
  | top (quest : Quest)
  | inside (quest : Quest) (current : OpenBlock)
deriving DecidableEq, Repr

namespace Stage

/-- The quest of a stage, without the block that is open. -/
def quest : Stage → Quest
  | top quest => quest
  | inside quest _ => quest

def current : Stage → Option OpenBlock
  | top _ => none
  | inside _ current => some current

def scope : Stage → Scope
  | top _ => .top
  | inside _ current => .inside current.block current.opener

/-- The quest that is read from the tokens that are left, if they have no fault. -/
def resume (schema : Schema) (stage : Stage) (tokens : List Token) : Option Quest :=
  match (outlineFrom stage.scope tokens).fault,
    Draft.takeAll schema ⟨stage.quest, stage.current, []⟩ (outlineFrom stage.scope tokens).events with
  | none, .ok draft => some draft.quest
  | _, _ => none

/-- The quest that is read from the text that is left, if it has no fault. -/
def resumeText (schema : Schema) (stage : Stage) (position : Position) (text : List Char) :
    Option Quest :=
  match tokensFrom position text with
  | .ok tokens => stage.resume schema tokens
  | .error _ => none

/-- The reading from a stage on succeeds just if the tokens left have no fault and their events
make a run. -/
theorem resume_eq_some_iff {schema : Schema} {stage : Stage} {tokens : List Token}
    {quest : Quest} :
    stage.resume schema tokens = some quest ↔
      ∃ events current, outlineFrom stage.scope tokens = ⟨events, none⟩ ∧
        Run schema stage.quest stage.current events quest current := by
  unfold resume
  constructor
  · intro hResume
    split at hResume
    · next draft hFault hTake =>
        cases hResume
        exact ⟨_, draft.current, by rw [← hFault], Draft.takeAll_run hTake⟩
    · cases hResume
  · rintro ⟨events, current, hOutline, run⟩
    obtain ⟨warnings, hTake⟩ := run.takeAll []
    simp only [hOutline, hTake]

/-- A step that yields an event puts it in front of the outline of what is left. -/
theorem outlineFrom_event {scope scope' : Scope} {token : Token} {rest rest' : List Token}
    {event : Event} (hStep : Script.step scope token rest = .event event scope' rest') :
    outlineFrom scope (token :: rest) = (outlineFrom scope' rest').cons event := by
  rw [Script.outlineFrom_cons, hStep]

theorem outlineFrom_failure {scope : Scope} {token : Token} {rest : List Token}
    {fault : Malformed} (hStep : Script.step scope token rest = .failure fault) :
    outlineFrom scope (token :: rest) = ⟨[], some fault⟩ := by
  rw [Script.outlineFrom_cons, hStep]

/-- An event that a step reads and that leads on is behind the reading from then on. -/
theorem resume_event {schema : Schema} {stage stage' : Stage} {token : Token}
    {rest rest' : List Token} {event : Event}
    (hStep : Script.step stage.scope token rest = .event event stage'.scope rest')
    (takes : Takes schema stage.quest stage.current event stage'.quest stage'.current) :
    stage.resume schema (token :: rest) = stage'.resume schema rest' := by
  apply Option.ext
  intro quest
  rw [resume_eq_some_iff, resume_eq_some_iff, outlineFrom_event hStep]
  constructor
  · rintro ⟨events, current, hOutline, run⟩
    rw [Outline.cons, Outline.mk.injEq] at hOutline
    obtain ⟨rfl, hFault⟩ := hOutline
    cases run with
    | cons first rest =>
        obtain ⟨hQuest, hCurrent⟩ :=
          (Run.cons first Run.nil).unique (Run.cons takes Run.nil)
        rw [hQuest, hCurrent] at rest
        exact ⟨_, current, by rw [← hFault], rest⟩
  · rintro ⟨events, current, hOutline, run⟩
    exact ⟨event :: events, current, by rw [hOutline, Outline.cons], Run.cons takes run⟩

/-- Reading from a stage fails as soon as a step does. -/
theorem resume_failure {schema : Schema} {stage : Stage} {token : Token} {rest : List Token}
    {fault : Malformed} (hStep : Script.step stage.scope token rest = .failure fault) :
    stage.resume schema (token :: rest) = none := by
  apply Option.eq_none_iff_forall_ne_some.2
  intro quest hResume
  obtain ⟨events, current, hOutline, _⟩ := resume_eq_some_iff.1 hResume
  rw [outlineFrom_failure hStep] at hOutline
  cases hOutline

/-- Nothing is read from a step whose event is refused. -/
theorem resume_refused {schema : Schema} {stage : Stage} {scope : Scope} {token : Token}
    {rest rest' : List Token} {event : Event}
    (hStep : Script.step stage.scope token rest = .event event scope rest')
    (hRefused : ∀ quest current, ¬Takes schema stage.quest stage.current event quest current) :
    stage.resume schema (token :: rest) = none := by
  apply Option.eq_none_iff_forall_ne_some.2
  intro quest hResume
  obtain ⟨events, current, hOutline, run⟩ := resume_eq_some_iff.1 hResume
  rw [outlineFrom_event hStep, Outline.cons, Outline.mk.injEq] at hOutline
  rw [← hOutline.1] at run
  cases run with
  | cons first rest => exact hRefused _ _ first

theorem resume_end (schema : Schema) (quest : Quest) {final : Token} (hFinal : final.kind = .eof)
    (rest : List Token) : (top quest).resume schema (final :: rest) = some quest := by
  refine resume_eq_some_iff.2 ⟨[], none, ?_, Run.nil⟩
  have hStep : Script.step .top final rest = .finished := by
    simp [Script.step, Script.stepTop, hFinal]
  rw [scope, outlineFrom]
  split
  · rfl
  all_goals next h => rw [hStep] at h; cases h

end Stage

/-- What a script is read as, taken up at its start. -/
theorem Quest.parse_iff_resumeText {schema : Schema} {id : Number} {text : String}
    {quest : Quest} :
    (∃ warnings, Quest.parse schema id text = .ok (quest, warnings)) ↔
      (Stage.top (Quest.blank id)).resumeText schema .start text.toList = some quest := by
  rw [Quest.parse_ok_iff, Stage.resumeText, Script.tokenize]
  cases hTokens : tokensFrom .start text.toList with
  | error fault => simp
  | ok tokens =>
      rw [Stage.resume_eq_some_iff]
      constructor
      · rintro ⟨found, events, current, hFound, hOutline, run⟩
        cases hFound
        exact ⟨events, current, hOutline, run⟩
      · rintro ⟨events, current, hOutline, run⟩
        exact ⟨tokens, events, current, rfl, hOutline, run⟩

/-! ### From stage to stage -/

/-- Wherever a text stands, the quest that is read from it at one stage is the one that is read from
another text at another stage. -/
def Leads (schema : Schema) (stage : Stage) (text : List Char) (stage' : Stage)
    (text' : List Char) : Prop :=
  ∀ position, ∃ position',
    stage.resumeText schema position text = stage'.resumeText schema position' text'

/-- Wherever a text stands, no quest is read from it at a stage. -/
def Fails (schema : Schema) (stage : Stage) (text : List Char) : Prop :=
  ∀ position, stage.resumeText schema position text = none

/-- The first token of a text, wherever it stands, has a property. -/
def Meets (text : List Char) (property : Symbol → Prop) : Prop :=
  ∀ position tokens, tokensFrom position text = .ok tokens → property (nextToken tokens).symbol

namespace Leads

variable {schema : Schema} {stage stage' stage'' : Stage} {text text' text'' : List Char}

theorem refl : Leads schema stage text stage text := fun position => ⟨position, rfl⟩

/-- Stages of reading compose, so a script is read section by section. -/
theorem trans (first : Leads schema stage text stage' text')
    (second : Leads schema stage' text' stage'' text'') :
    Leads schema stage text stage'' text'' := by
  intro position
  obtain ⟨position', hFirst⟩ := first position
  obtain ⟨position'', hSecond⟩ := second position'
  exact ⟨position'', hFirst.trans hSecond⟩

/-- A text that leads to one that fails fails too. -/
theorem fails (leads : Leads schema stage text stage' text') (fails : Fails schema stage' text') :
    Fails schema stage text := by
  intro position
  obtain ⟨position', hLeads⟩ := leads position
  rw [hLeads, fails position']

/-- Gaps lead nowhere. -/
theorem gaps {gap : List Char} (hGaps : ∀ c ∈ gap, Script.isGapChar c = true) :
    Leads schema stage (gap ++ text) stage text := by
  intro position
  refine ⟨position.advance gap, ?_⟩
  rw [Stage.resumeText, Script.tokensFrom_gaps position hGaps]
  rfl

/-- Laid out text leads where its tokens lead. -/
theorem of_layout {pieces : List Piece} (hLaid : WellLaid text pieces)
    (hTokens : ∀ position tokens,
      tokensFrom (Position.advance position (layout pieces)) text = .ok tokens →
        stage.resume schema (place position pieces ++ tokens) = stage'.resume schema tokens) :
    Leads schema stage (layout pieces ++ text) stage' text := by
  intro position
  refine ⟨position.advance (layout pieces), ?_⟩
  rw [Stage.resumeText, Stage.resumeText, Script.tokensFrom_layout position hLaid]
  cases hRest : tokensFrom (Position.advance position (layout pieces)) text with
  | error fault => rfl
  | ok tokens => exact hTokens position tokens hRest

end Leads

/-- Pieces fail when no tokens behind them can be read on, wherever the pieces stand. -/
theorem Fails.of_layout {schema : Schema} {stage : Stage} {text : List Char} {pieces : List Piece}
    (hLaid : WellLaid text pieces)
    (hTokens : ∀ position tokens,
      tokensFrom (Position.advance position (layout pieces)) text = .ok tokens →
        stage.resume schema (place position pieces ++ tokens) = none) :
    Fails schema stage (layout pieces ++ text) := by
  intro position
  rw [Stage.resumeText, Script.tokensFrom_layout position hLaid]
  cases hRest : tokensFrom (Position.advance position (layout pieces)) text with
  | error fault => rfl
  | ok tokens => exact hTokens position tokens hRest

/-- A text of gaps is the end of a script. -/
theorem Stage.resumeText_gaps (schema : Schema) (quest : Quest) (position : Position)
    {text : List Char} (hGaps : ∀ c ∈ text, Script.isGapChar c = true) :
    (Stage.top quest).resumeText schema position text = some quest := by
  have hTokens := Script.tokensFrom_gaps position hGaps []
  rw [List.append_nil, Script.tokensFrom_nil] at hTokens
  rw [Stage.resumeText, hTokens]
  exact Stage.resume_end schema quest rfl []

namespace Meets

variable {text : List Char} {property property' : Symbol → Prop}

theorem mono (meets : Meets text property) (hMono : ∀ symbol, property symbol → property' symbol) :
    Meets text property' :=
  fun position tokens hTokens => hMono _ (meets position tokens hTokens)

/-- Gaps before a text do not change its first token. -/
theorem gaps {gap : List Char} (hGaps : ∀ c ∈ gap, Script.isGapChar c = true)
    (meets : Meets text property) : Meets (gap ++ text) property := by
  intro position tokens hTokens
  rw [Script.tokensFrom_gaps position hGaps] at hTokens
  exact meets _ tokens hTokens

/-- The first token of a text that begins with a well-formed symbol is that symbol, if it ends
there. -/
theorem symbol {symbol : Symbol} (hForm : symbol.WellFormed) {rest : List Char}
    (hEnds : symbol.kind.endsBefore rest = true) (hProperty : property symbol) :
    Meets (symbol.source ++ rest) property := by
  intro position tokens hTokens
  rw [Script.tokensFrom_symbol position hForm hEnds] at hTokens
  cases hRest : tokensFrom (position.advance symbol.source) rest with
  | error fault =>
      rw [hRest] at hTokens
      cases hTokens
  | ok tokens' =>
      rw [hRest] at hTokens
      cases hTokens
      exact hProperty

theorem nil (hProperty : property ⟨.eof, ""⟩) : Meets [] property := by
  intro position tokens hTokens
  rw [Script.tokensFrom_nil] at hTokens
  cases hTokens
  exact hProperty

end Meets

end QuestScript

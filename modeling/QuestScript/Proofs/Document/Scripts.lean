import QuestScript.Proofs.Document.Storage
import QuestScript.Proofs.Quest.Reread
/-!
Documents of quests that were read from scripts. A script keeps to most of what documents ask for: its
numbers are integers, its weights are not below zero, and its calls are identifiers. Only names may be
empty, as scripts put them between quotes.
-/

namespace QuestScript

/-- No state, no random block and no target has an empty name. -/
structure Quest.Named (quest : Quest) : Prop where
  states : ∀ state ∈ quest.states, state.name ≠ ""
  random : ∀ block ∈ quest.random, block.name ≠ ""
  targets : ∀ block ∈ quest.random, ∀ target ∈ block.targets, target.state ≠ ""

theorem IsIdentifier.ne_empty {text : String} (hText : IsIdentifier text) : text ≠ "" := by
  rintro rfl
  exact absurd hText (by decide)

namespace Quest.Sourced

variable {schema : Schema} {quest : Quest}

/-- All numbers that a script gives are integers. -/
theorem hasIntegers (hQuest : quest.Sourced schema) (hCanonical : quest.Canonical schema)
    (hId : quest.id.IsInteger) : quest.HasIntegers where
  id := hId
  version := by
    obtain ⟨version, hVersion, -⟩ := hQuest.version
    rw [hVersion]
    rfl
  gates := by
    intro gate number hNumber
    obtain ⟨value, rfl, -⟩ := hQuest.gates gate number hNumber
    rfl
  weights := by
    intro block hBlock target hTarget
    obtain ⟨weight, hWeight, _⟩ := (hCanonical.random block hBlock).weights target hTarget
    rw [hWeight]
    rfl

/-- Of what documents ask for, scripts leave open the names. -/
theorem complete_iff_named (hQuest : quest.Sourced schema) (hCanonical : quest.Canonical schema)
    (hId : quest.id.isNegative = false) : quest.Complete ↔ quest.Named := by
  constructor
  · intro hComplete
    exact ⟨(Quest.forall_mem_blocks.1 hComplete.names).2, hComplete.random, hComplete.targets⟩
  · intro hNamed
    constructor
    · exact hId
    · intro block hBlock target hTarget
      obtain ⟨weight, hWeight, hNonneg⟩ := (hCanonical.random block hBlock).weights target hTarget
      rw [hWeight]
      simpa [Number.isNegative] using hNonneg
    · refine Quest.forall_mem_blocks.2 ⟨?_, hNamed.states⟩
      intro main hMain
      rw [hCanonical.mainName main hMain]
      decide
    · intro block hBlock action hAction
      obtain ⟨call, hSound, -, rfl⟩ := (hQuest.blocks block hBlock).actions action hAction
      exact hSound.1.ne_empty
    · intro block hBlock rule hRule
      obtain ⟨call, goto, hSound, -, -, rfl⟩ := (hQuest.blocks block hBlock).rules rule hRule
      exact hSound.1.ne_empty
    · exact hNamed.random
    · exact hNamed.targets

end Quest.Sourced

/-- A quest that was read from a script has a document, which is accepted exactly if no name is empty.
Then the quest comes back as an equal one; otherwise the document is refused. -/
theorem Quest.parse_stored_iff_named {schema : Schema} {id : Number} (hId : id.IsNatural)
    {text : String} {quest : Quest} {warnings : List Warning}
    (hParse : Quest.parse schema id text = .ok (quest, warnings)) :
    Document.write schema quest = .ok (Document.encode schema quest) ∧
      (Document.reports (Document.encode schema quest) = [] ↔ quest.Named) ∧
      (quest.Named → ∃ again, Document.decode schema none (Document.encode schema quest) = .ok again ∧
        again.same quest = true) ∧
      (¬ quest.Named → ∃ violation,
        Document.decode schema none (Document.encode schema quest) = .error (.invalid violation)) := by
  have hSourced := Quest.parse_sourced hParse
  obtain ⟨tokens, events, current, hTokens, hOutline, run⟩ := Quest.parse_ok_iff.1 ⟨_, hParse⟩
  have hCanonical := run.canonical hTokens hOutline
  have hSame : quest.id = id := run.id_eq
  subst hSame
  have hStorable : quest.Storable ↔ quest.Named := by
    rw [Quest.storable_iff_complete (hSourced.hasIntegers hCanonical hId.1),
      hSourced.complete_iff_named hCanonical hId.2]
  have hAccepts := Document.encode_accepted_iff schema quest
  have hFits : quest.callFault? schema = none :=
    Quest.callFault?_eq_none_iff.2 fun block hMem => State.fault?_eq_none_iff.2
      ⟨hSourced.writable.actions block hMem, hSourced.writable.rules block hMem⟩
  have hWrite := Document.write_eq_ok_iff.2 ⟨hFits, rfl⟩
  rw [Document.reports_eq_nil_iff, hAccepts, hStorable]
  refine ⟨hWrite, Iff.rfl, ?_, ?_⟩
  · intro hNamed
    exact Document.exists_decodeWith_write_same Document.Validator.ofFormat_lawful
      (hStorable.2 hNamed) hWrite
  · intro hUnnamed
    rw [← hStorable, ← hAccepts, ← Document.firstViolation?_eq_none_iff] at hUnnamed
    obtain ⟨violation, hFirst⟩ := Option.ne_none_iff_exists'.1 hUnnamed
    exact ⟨violation, Document.decodeWith_invalid schema (congrArg Except.ok hFirst)⟩

/-- A script with a bare attribute, a quoted state name and a random block is stored and read back
the same. The spelling of its integer is not kept. -/
theorem Quest.parse_stored_iff_named_sample :
    let quest : Quest :=
      { Quest.blank 7 with
        extra := Table.empty.put "note" none
        states := [⟨"A b", "", [⟨"Say", [.text "hi" true, .int 2], "Say(hi, 2);"⟩], []⟩]
        random := [⟨"r", [⟨"A b", 3⟩]⟩] }
    let text := "note; state \"A b\" \x7b Say(hi, 02) \x7d random r \x7b \"A b\" 3 \x7d"
    Number.IsNatural 7 ∧ (∃ warnings, Quest.parse Schema.empty 7 text = .ok (quest, warnings)) ∧
      quest.Named ∧ Document.write Schema.empty quest = .ok (Document.encode Schema.empty quest) ∧
      Document.reports (Document.encode Schema.empty quest) = [] ∧
      ∃ again, Document.decode Schema.empty none (Document.encode Schema.empty quest) = .ok again ∧
        again.same quest = true := by
  intro quest text
  have hId : Number.IsNatural 7 := ⟨rfl, rfl⟩
  have hParse : Quest.parse Schema.empty 7 text = .ok (quest,
      [.unknownAttribute 1 "note", .unknownAction 1 "Say"]) := by
    decide +kernel
  have hNamed : quest.Named := by
    constructor <;> simp [quest]
  obtain ⟨hWrite, hAccepted, hReturns, _⟩ := Quest.parse_stored_iff_named hId hParse
  exact ⟨hId, ⟨_, hParse⟩, hNamed, hWrite, hAccepted.2 hNamed, hReturns hNamed⟩

/-- A name between quotes may be empty. -/
example : (Quest.parse Schema.empty 7 "state \"\" \x7b \x7d").toOption.map
    (fun result => Document.reports (Document.encode Schema.empty result.1)) =
      some ["states/0/name: '' should be non-empty"] := by
  decide +kernel

end QuestScript

import QuestScript.Proofs.Script.Spelling
/-!
Texts that stay on one line. A token never spans lines, so no text that an event takes from its
tokens does.
-/

namespace QuestScript

/-- A text without line feeds. -/
def OneLine (text : String) : Prop := '\n' ∉ text.toList

instance (text : String) : Decidable (OneLine text) := inferInstanceAs (Decidable (¬ _))

namespace OneLine

@[simp] theorem empty : OneLine "" := by decide

@[simp] theorem append_iff {left right : String} :
    OneLine (left ++ right) ↔ OneLine left ∧ OneLine right := by
  simp [OneLine]

theorem intercalate (separator : String) {texts : List String} (hSeparator : OneLine separator)
    (hTexts : ∀ text ∈ texts, OneLine text) : OneLine (separator.intercalate texts) := by
  induction texts with
  | nil => simp
  | cons text rest ih =>
      have hText : OneLine text := hTexts text (by simp)
      by_cases hRest : rest = []
      · simpa [hRest] using hText
      · rw [String.intercalate_cons_of_ne_nil hRest, append_iff, append_iff]
        exact ⟨⟨hText, hSeparator⟩, ih fun t hMem => hTexts t (by simp [hMem])⟩

end OneLine

namespace Script

/-- No token holds a line feed, not even a string, which has to be closed on its line. -/
theorem Token.oneLine_value {token : Token} (hForm : token.WellFormed) : OneLine token.value :=
  Token.lineFeed_notMem_value hForm

theorem Token.oneLine_sourceText {token : Token} (hForm : token.WellFormed) :
    OneLine token.sourceText :=
  Token.lineFeed_notMem_sourceText hForm

/-- Joined arguments are on one line, since blanks are put between them and no line feeds. -/
theorem oneLine_joinAfter {previous : Token} {tokens : List Token}
    (hForm : ∀ token ∈ tokens, token.WellFormed) : OneLine (joinAfter previous tokens) := by
  induction tokens generalizing previous with
  | nil => exact OneLine.empty
  | cons token rest ih =>
      rw [joinAfter, OneLine.append_iff, OneLine.append_iff]
      refine ⟨⟨?_, Token.oneLine_sourceText (hForm token (by simp))⟩,
        ih fun t hMem => hForm t (by simp [hMem])⟩
      split <;> decide

theorem Arg.oneLine_ofToken {token : Token} (hForm : token.WellFormed) :
    OneLine (Arg.ofToken token).text := by
  unfold Arg.ofToken
  split <;> exact Token.oneLine_value hForm

/-- An argument of several tokens is on one line, even where its tokens stand on several. -/
theorem Arg.oneLine_ofTokens {first : Token} {rest : List Token}
    (hForm : ∀ token ∈ first :: rest, token.WellFormed) :
    OneLine (Arg.ofTokens first rest).text := by
  have hFirst := hForm first (by simp)
  have hJoined : OneLine (first.sourceText ++ joinAfter first rest) := by
    rw [OneLine.append_iff]
    exact ⟨Token.oneLine_sourceText hFirst, oneLine_joinAfter fun t hMem => hForm t (by simp [hMem])⟩
  unfold Arg.ofTokens
  split
  · exact Arg.oneLine_ofToken hFirst
  · simp only
    split <;> exact hJoined

def Event.strings : Event → List String
  | .attr key value => key.value :: value.toList.map Arg.text
  | .openMain _ => []
  | .openState _ name => [name]
  | .desc _ text => [text]
  | .call made => made.name.value :: (made.args.map Arg.text ++ made.goto.toList)
  | .close => []
  | .random _ name targets => name :: targets.map Prod.fst

theorem ArgumentsSpelled.oneLine {tokens : List Token} {args : List Arg}
    (spelled : ArgumentsSpelled tokens args) (hForm : ∀ token ∈ tokens, token.WellFormed) :
    ∀ arg ∈ args, OneLine arg.text := by
  induction spelled with
  | @last first close more hFirst hMore hClose =>
      intro arg hMem
      rw [List.mem_singleton.1 hMem]
      exact Arg.oneLine_ofTokens fun token hToken => hForm token (List.mem_append_left _ hToken)
  | @next first comma more tokens args hFirst hMore hComma rest ih =>
      intro arg hMem
      rcases List.mem_cons.1 hMem with rfl | hMem
      · exact Arg.oneLine_ofTokens fun token hToken => hForm token (List.mem_append_left _ hToken)
      · exact ih (fun token hToken => hForm token (by simp [hToken])) arg hMem

theorem ArgumentListSpelled.oneLine {tokens : List Token} {args : List Arg}
    (spelled : ArgumentListSpelled tokens args) (hForm : ∀ token ∈ tokens, token.WellFormed) :
    ∀ arg ∈ args, OneLine arg.text := by
  cases spelled with
  | empty hClose => simp
  | args spelled => exact spelled.oneLine hForm

theorem GotoSpelled.oneLine {tokens : List Token} {goto : Option String}
    (spelled : GotoSpelled tokens goto) (hForm : ∀ token ∈ tokens, token.WellFormed) :
    ∀ target ∈ goto, OneLine target := by
  cases spelled with
  | absent => simp
  | clause hKeyword hTarget hLine =>
      intro target hMem
      cases hMem
      exact Token.oneLine_value (hForm _ (by simp))

theorem ValueSpelled.oneLine {key : Token} {tokens : List Token} {value : Option Arg}
    (spelled : ValueSpelled key tokens value) (hForm : ∀ token ∈ tokens, token.WellFormed) :
    ∀ arg ∈ value, OneLine arg.text := by
  cases spelled with
  | absent => simp
  | loose hLoose =>
      intro arg hMem
      cases hMem
      exact Arg.oneLine_ofToken (hForm _ (by simp))
  | assigned hEquals hValue =>
      intro arg hMem
      cases hMem
      exact Arg.oneLine_ofToken (hForm _ (by simp))

theorem TargetsSpelled.oneLine {tokens : List Token} {targets : List (String × Int)}
    (spelled : TargetsSpelled tokens targets) (hForm : ∀ token ∈ tokens, token.WellFormed) :
    ∀ target ∈ targets, OneLine target.1 := by
  induction spelled with
  | close hKind => simp
  | separator hKind rest ih => exact ih fun token hToken => hForm token (by simp [hToken])
  | plain hName rest ih =>
      intro target hMem
      rcases List.mem_cons.1 hMem with rfl | hMem
      · exact Token.oneLine_value (hForm _ (by simp))
      · exact ih (fun token hToken => hForm token (by simp [hToken])) target hMem
  | weighted hName hWeight hFits hSign rest ih =>
      intro target hMem
      rcases List.mem_cons.1 hMem with rfl | hMem
      · exact Token.oneLine_value (hForm _ (by simp))
      · exact ih (fun token hToken => hForm token (by simp [hToken])) target hMem

/-- All texts of an event are on one line. -/
theorem EventSpelled.oneLine {scope scope' : Scope} {event : Event} {tokens : List Token}
    (spelled : EventSpelled scope event tokens scope')
    (hForm : ∀ token ∈ tokens, token.WellFormed) : ∀ text ∈ event.strings, OneLine text := by
  cases spelled with
  | @attr _ key value valueTokens semicolon ended hKey hScope spelledValue spelledEnd =>
      have hValue := spelledValue.oneLine fun token hToken => hForm token (by simp [hToken])
      intro text hMem
      simp only [Event.strings, List.mem_cons, List.mem_map, Option.mem_toList] at hMem
      rcases hMem with rfl | ⟨arg, hArg, rfl⟩
      · exact Token.oneLine_value (hForm key (by simp))
      · exact hValue arg hArg
  | openMain hOpener hBrace => simp [Event.strings]
  | @openState opener name brace hOpener hName hBrace =>
      simpa [Event.strings] using Token.oneLine_value (hForm name (by simp))
  | @desc block opener keyword text semicolon ended hKeyword hText spelledEnd =>
      simpa [Event.strings] using Token.oneLine_value (hForm text (by simp))
  | @call block opener name paren front args goto semicolon call hFront hName hCall hParen
      spelledArgs spelledGoto spelledEnd =>
      have hArgs := spelledArgs.oneLine fun token hToken => hForm token (by simp [hToken])
      have hGoto := spelledGoto.oneLine fun token hToken => hForm token (by simp [hToken])
      intro text hMem
      simp only [Event.strings, List.mem_cons, List.mem_append, List.mem_map,
        Option.mem_toList] at hMem
      rcases hMem with rfl | ⟨arg, hArg, rfl⟩ | hTarget
      · rw [hCall]
        exact Token.oneLine_value (hForm name (by simp))
      · exact hArgs arg hArg
      · exact hGoto text hTarget
  | close hBrace => simp [Event.strings]
  | @random opener name brace tokens targets hOpener hName hBrace spelled =>
      have hTargets := spelled.oneLine fun token hToken => hForm token (by simp [hToken])
      intro text hMem
      simp only [Event.strings, List.mem_cons, List.mem_map] at hMem
      rcases hMem with rfl | ⟨target, hTarget, rfl⟩
      · exact Token.oneLine_value (hForm name (by simp))
      · exact hTargets target hTarget

/-- The texts of the events of a script stay on one line each. -/
theorem ScriptSpelled.oneLine {scope : Scope} {events : List Event} {tokens : List Token}
    (spelled : ScriptSpelled scope events tokens) (hForm : ∀ token ∈ tokens, token.WellFormed) :
    ∀ event ∈ events, ∀ text ∈ event.strings, OneLine text := by
  induction spelled with
  | finished hFinal => simp
  | skip hKind rest ih => exact ih fun token hToken => hForm token (by simp [hToken])
  | event first rest ih =>
      intro event hMem
      rcases List.mem_cons.1 hMem with rfl | hMem
      · exact first.oneLine fun token hToken => hForm token (by simp [hToken])
      · exact ih (fun token hToken => hForm token (by simp [hToken])) event hMem

end Script

end QuestScript

import QuestScript.Proofs.Quest.Reading
import QuestScript.Schema.Vocabulary
import QuestScript.Proofs.Script.Semicolons
/-!
Semicolons behind calls. A script that can be read is read as the same quest when the semicolon of a
call becomes a space, but for one case: a word goto comes next, and the call has no goto clause.
That word is the name of a call, and it is taken for the keyword of a clause that has no target.
-/

namespace QuestScript

open Script (Call EndsCall Event Malformed Outline Position Token nextToken tokenize)

/-- Events are taken in two stretches, and the first fault ends both. -/
theorem Draft.takeAll_append (schema : Schema) (draft : Draft) (events more : List Event) :
    draft.takeAll schema (events ++ more) =
      match draft.takeAll schema events with
      | .error fault => .error fault
      | .ok draft' => draft'.takeAll schema more := by
  rw [Draft.takeAll, List.foldlM_append, ← Draft.takeAll]
  cases draft.takeAll schema events <;> rfl

/-- Nothing of a quest comes from whether a semicolon ends a call. -/
theorem Quest.ofOutline_semicolon (schema : Schema) (id : Number) (events : List Event)
    (call : Call) (ended : Bool) (outline : Outline) :
    ofOutline schema id ((outline.cons (.call { call with semicolon := ended })).prepend events) =
      ofOutline schema id ((outline.cons (.call call)).prepend events) := by
  simp only [ofOutline, Outline.prepend, Outline.cons, Draft.takeAll_append, Draft.takeAll_cons]
  rfl

/-- An outline is taken as a whole when all of its events are and it has no fault itself. -/
theorem Quest.ofOutline_eq_ok {schema : Schema} {id : Number} {outline : Outline} {draft : Draft}
    (hOutline : ofOutline schema id outline = .ok draft) :
    (Draft.start id).takeAll schema outline.events = .ok draft ∧ outline.fault = none := by
  unfold ofOutline at hOutline
  split at hOutline
  · cases hOutline
  · next hTake =>
      split at hOutline
      · cases hOutline
      · next hFault =>
          cases hOutline
          exact ⟨hTake, hFault⟩

/-- A fault of grammar behind events that can be taken is the fault of the script. -/
theorem Quest.ofOutline_stopped {schema : Schema} {id : Number} {events : List Event}
    {outline : Outline} {draft : Draft}
    (hOutline : ofOutline schema id (outline.prepend events) = .ok draft) (fault : Malformed) :
    ofOutline schema id ⟨events, some fault⟩ = .error fault := by
  have hTake := (ofOutline_eq_ok hOutline).1
  rw [Outline.prepend, Draft.takeAll_append] at hTake
  rw [ofOutline]
  cases hEvents : (Draft.start id).takeAll schema events with
  | error fault =>
      rw [hEvents] at hTake
      cases hTake
  | ok draft' => rfl

/-- With a space in the place of a semicolon that ends a call, a script is read as before: as the
same quest with the same warnings. The exception is a call without a goto clause before a word goto,
which it takes for the keyword of one; such a script is refused. -/
theorem Quest.parse_space {schema : Schema} {id : Number} {before after : String}
    {front back : List Token} {semicolon : Token} {call : Call} {quest : Quest}
    {warnings : List Warning}
    (hTokens : tokenize (before ++ ";" ++ after) = .ok (front ++ semicolon :: back))
    (hPlace : Position.start.advance before.toList = ⟨semicolon.line, semicolon.column⟩)
    (ends : EndsCall front semicolon back call)
    (hParse : parse schema id (before ++ ";" ++ after) = .ok (quest, warnings)) :
    parse schema id (before ++ " " ++ after) =
      if call.TakesGoto (nextToken back) then
        .error (.atToken (.noGotoTarget call.name.value) (nextToken back))
      else .ok (quest, warnings) := by
  have hSpace : tokenize (before ++ " " ++ after) = .ok (front ++ back) := by
    rw [tokenize] at hTokens ⊢
    simp only [String.toList_append] at hTokens ⊢
    rw [List.append_assoc] at hTokens ⊢
    exact (Script.tokensFrom_lexed hTokens).space hPlace
  obtain ⟨events, scope, hOutline, hOpen, hStopped⟩ := ends.outline
  simp only [parse, hTokens, hSpace, ofTokens] at hParse ⊢
  rw [hOutline] at hParse
  split
  · next hTakes =>
      obtain ⟨draft, hDraft⟩ : ∃ draft, ofOutline schema id
          (((Script.outlineFrom scope back).cons (.call call)).prepend events) = .ok draft := by
        revert hParse
        cases ofOutline schema id _ with
        | error fault =>
            intro hError
            cases hError
        | ok draft => exact fun _ => ⟨draft, rfl⟩
      rw [hStopped hTakes (ofOutline_eq_ok hDraft).2, ofOutline_stopped hDraft]
      rfl
  · next hTakes => rw [hOpen hTakes, ofOutline_semicolon, hParse]

/-- Three calls of actions that the built-in schema knows. The first one is read without its
semicolon too, the second one is not. -/
theorem Quest.parse_space_sample :
    (∃ found,
      parse Schema.builtin 7 ("State A \x7b End()" ++ ";" ++ " Reset(); Goto(A); \x7d") =
        .ok found ∧
      parse Schema.builtin 7 ("State A \x7b End()" ++ " " ++ " Reset(); Goto(A); \x7d") =
        .ok found) ∧
    parse Schema.builtin 7 ("State A \x7b End(); Reset()" ++ " " ++ " Goto(A); \x7d") =
      .error ⟨.noGotoTarget "Reset", 1, 27⟩ := by
  let state : Token := ⟨.ident, "State", 1, 1⟩
  let reset : List Token := [⟨.ident, "Reset", 1, 18⟩, ⟨.lparen, "(", 1, 23⟩, ⟨.rparen, ")", 1, 24⟩]
  let goto : List Token :=
    [⟨.ident, "Goto", 1, 27⟩, ⟨.lparen, "(", 1, 31⟩, ⟨.ident, "A", 1, 32⟩, ⟨.rparen, ")", 1, 33⟩,
      ⟨.semi, ";", 1, 34⟩, ⟨.rbrace, "\x7d", 1, 36⟩, ⟨.eof, "", 1, 37⟩]
  let front : List Token := [state, ⟨.ident, "A", 1, 7⟩, ⟨.lbrace, "\x7b", 1, 9⟩,
    ⟨.ident, "End", 1, 11⟩, ⟨.lparen, "(", 1, 14⟩, ⟨.rparen, ")", 1, 15⟩]
  let first : Token := ⟨.semi, ";", 1, 16⟩
  let second : Token := ⟨.semi, ";", 1, 25⟩
  have hOpen {rest : List Token} :
      Script.step .top state (⟨.ident, "A", 1, 7⟩ :: ⟨.lbrace, "\x7b", 1, 9⟩ :: rest) =
        .event (.openState state "A") (.inside (.state "A") state) rest :=
    Script.step_state (by decide) (by decide) rfl
  have hEnd : EndsCall front first (reset ++ second :: goto)
      ⟨⟨.ident, "End", 1, 11⟩, [], none, true⟩ :=
    .intro (.event hOpen .here) ((Script.step_call rfl rfl).trans rfl) rfl
  have hReset : EndsCall (front ++ first :: reset) second goto
      ⟨⟨.ident, "Reset", 1, 18⟩, [], none, true⟩ :=
    .intro (.event hOpen (.event ((Script.step_call rfl rfl).trans rfl) .here))
      ((Script.step_call rfl rfl).trans rfl) rfl
  have hParse : parse Schema.builtin 7 ("State A \x7b End()" ++ ";" ++ " Reset(); Goto(A); \x7d") =
      .ok ((parse Schema.builtin 7 "State A \x7b End(); Reset(); Goto(A); \x7d").toOption.getD
        (blank 7, [])) := by decide +kernel
  have hParse' : parse Schema.builtin 7 ("State A \x7b End(); Reset()" ++ ";" ++ " Goto(A); \x7d") =
      .ok ((parse Schema.builtin 7 "State A \x7b End(); Reset(); Goto(A); \x7d").toOption.getD
        (blank 7, [])) := by decide +kernel
  have hFirst := (parse_space (by decide +kernel) (by decide) hEnd hParse).trans
    (if_neg (by decide))
  have hSecond := (parse_space (by decide +kernel) (by decide) hReset hParse').trans
    (if_pos (by decide))
  exact ⟨⟨_, hParse, hFirst⟩, hSecond⟩

end QuestScript

import QuestScript.Proofs.Script.Phrase
/-!
Tokens written apart from one another are read back. No token has to know its neighbours here: a
space or a line feed ends every token, so any sequence of tokens can be written with runs of them in
between, whatever would have become of the tokens side by side.
-/

namespace QuestScript.Script

open QuestScript.Text

/-- A run of spaces and line feeds that keeps two tokens apart. -/
structure Separator where
  run : List Char
  run_ne_nil : run ≠ []
  mem_run : ∀ c ∈ run, c = ' ' ∨ c = '\n'

/-- A text is the source texts of some tokens in turn, with a separator between each two of them. -/
inductive Separated : List Symbol → List Char → Prop where
  | nil : Separated [] []
  | single (symbol : Symbol) : Separated [symbol] symbol.source
  | cons (symbol : Symbol) (separator : Separator) {next : Symbol} {symbols : List Symbol}
      {text : List Char} (separated : Separated (next :: symbols) text) :
      Separated (symbol :: next :: symbols) (symbol.source ++ (separator.run ++ text))

namespace Separator

theorem gaps (separator : Separator) : ∀ c ∈ separator.run, isGapChar c = true := by
  intro c hMem
  rcases separator.mem_run c hMem with rfl | rfl <;> decide

/-- Every token ends where a separator begins. -/
theorem delimited (separator : Separator) (rest : List Char) :
    Delimited (separator.run ++ rest) := by
  obtain ⟨c, run, hRun⟩ := List.exists_cons_of_ne_nil separator.run_ne_nil
  have hBreak : c = ' ' ∨ c = '\n' := separator.mem_run c (by simp [hRun])
  rw [hRun, List.cons_append]
  rcases hBreak with rfl | rfl
  · exact delimited_cons _ (by decide) (by decide)
  · exact delimited_cons _ (by decide) (by decide)

end Separator

/-- Separated tokens are read from any place on, and then the end of the text. -/
theorem Separated.tokensFrom {symbols : List Symbol} {text : List Char}
    (separated : Separated symbols text) (hForm : ∀ symbol ∈ symbols, symbol.WellFormed)
    (position : Position) :
    ∃ tokens final, Script.tokensFrom position text = .ok (tokens ++ [final]) ∧
      tokens.map Token.symbol = symbols ∧ final.symbol = ⟨.eof, ""⟩ := by
  induction separated generalizing position with
  | nil => exact ⟨[], _, tokensFrom_nil position, rfl, rfl⟩
  | single symbol =>
      have hSymbol : symbol.WellFormed := List.forall_mem_singleton.1 hForm
      have hEnds : symbol.kind.endsBefore [] = true := rfl
      have hRead := tokensFrom_symbol position hSymbol hEnds
      rw [List.append_nil, tokensFrom_nil] at hRead
      exact ⟨[symbol.placedAt position], _, hRead, rfl, rfl⟩
  | cons symbol separator separated ih =>
      obtain ⟨hSymbol, hMore⟩ := List.forall_mem_cons.1 hForm
      obtain ⟨tokens, final, hRest, hSymbols, hFinal⟩ :=
        ih hMore ((position.advance symbol.source).advance separator.run)
      refine ⟨symbol.placedAt position :: tokens, final, ?_, ?_, hFinal⟩
      · rw [tokensFrom_symbol position hSymbol (separator.delimited _ _),
          tokensFrom_gaps _ separator.gaps, hRest]
        rfl
      · rw [List.map_cons, hSymbols]
        rfl

/-- Splitting a script into tokens undoes writing them down. Tokens whose values their classes admit,
written in turn with runs of spaces and line feeds in between, are read back with the same classes and
values in the same order, and then comes the end of the script. -/
theorem tokenize_separated {symbols : List Symbol} {text : String}
    (hForm : ∀ symbol ∈ symbols, symbol.WellFormed) (separated : Separated symbols text.toList) :
    ∃ tokens final, tokenize text = .ok (tokens ++ [final]) ∧
      tokens.map Token.symbol = symbols ∧ final.symbol = ⟨.eof, ""⟩ :=
  separated.tokensFrom hForm Position.start

/-- A sign and a number and two words that would become one token side by side, strings with slashes
and braces or nothing in them, and letters and digits beyond ASCII. -/
theorem tokenize_separated_sample :
    let symbols : List Symbol :=
      [⟨.number, "-"⟩, ⟨.number, ".5."⟩, ⟨.ident, "état_²"⟩, ⟨.ident, "_9"⟩, ⟨.string, "// \x7b;"⟩,
        ⟨.string, ""⟩, ⟨.number, "²٣"⟩, ⟨.rbrace, "\x7d"⟩, ⟨.semi, ";"⟩]
    let text := "- .5.\n\nétat_² _9 \n\"// \x7b;\" \"\" ²٣ \x7d\n;"
    (∀ symbol ∈ symbols, symbol.WellFormed) ∧ Separated symbols text.toList ∧
      ∃ tokens final, tokenize text = .ok (tokens ++ [final]) ∧
        tokens.map Token.symbol = symbols ∧ final.symbol = ⟨.eof, ""⟩ := by
  intro symbols text
  have hForm : ∀ symbol ∈ symbols, symbol.WellFormed := by
    have hEach : ∀ symbol ∈ symbols,
        symbol.kind.admits symbol.value.toList = true ∧ symbol.kind ≠ .eof := by decide +kernel
    exact fun symbol hMem => ⟨(hEach symbol hMem).1, (hEach symbol hMem).2⟩
  let space : Separator := ⟨[' '], List.cons_ne_nil _ _, by simp⟩
  let feed : Separator := ⟨['\n'], List.cons_ne_nil _ _, by simp⟩
  let feeds : Separator := ⟨['\n', '\n'], List.cons_ne_nil _ _, by simp⟩
  let mixed : Separator := ⟨[' ', '\n'], List.cons_ne_nil _ _, by simp⟩
  have separated : Separated symbols text.toList := by
    refine Eq.subst (motive := Separated symbols) (?_ : _ = text.toList)
      (.cons _ space (.cons _ feeds (.cons _ space (.cons _ mixed (.cons _ space (.cons _ space
        (.cons _ space (.cons _ feed (.single _)))))))))
    decide +kernel
  exact ⟨hForm, separated, tokenize_separated hForm separated⟩

end QuestScript.Script

import QuestScript.Proofs.Quest.Openings
import Mathlib.Data.List.Lex
import Mathlib.Algebra.Order.Monoid.Unbundled.WithTop
/-!
Texts with quotes between quotes. The quotes that a text begins with are not lost when it is written
between quotes and read again, and one is added to them; so the texts of a call, ranked by the quotes
that they begin with, never fall, and rise where one in a string slot has a quote.
-/

namespace QuestScript

open Script (Arg ArgumentListSpelled ArgumentsSpelled Call Delimited Kind Phrase Piece Position Symbol
  Token WellLaid layout leadingText place tokensFrom)

/-! ### Ranks -/

/-- The number of quotes that a text begins with, beyond all numbers for a text without quotes. -/
def quoteRank (text : String) : WithTop ℕ :=
  if '"' ∈ text.toList then ((text.toList.takeWhile (· = '"')).length : ℕ) else ⊤

/-- Without a quote a text has the highest rank. Such a text comes back as it is, so there is
nothing left to grow. -/
theorem quoteRank_of_notMem {text : String} (hText : '"' ∉ text.toList) : quoteRank text = ⊤ :=
  if_neg hText

theorem quoteRank_toString (n : Int) : quoteRank (toString n) = ⊤ := by
  refine quoteRank_of_notMem fun hMem => ?_
  exact absurd (Kind.isStringChar_of_admits (Integer.admits_toString n) hMem) (by decide)

/-- A text that begins with some quotes has at least so many of them as its rank. -/
theorem le_quoteRank {text : String} {count : ℕ}
    (hQuotes : List.replicate count '"' <+: text.toList) : (count : WithTop ℕ) ≤ quoteRank text := by
  by_cases hMem : '"' ∈ text.toList
  · obtain ⟨rest, hText⟩ := hQuotes
    rw [quoteRank, if_pos hMem, ← hText]
    rw [List.takeWhile_append_of_pos (by simp [List.mem_replicate]), List.length_append,
      List.length_replicate]
    exact WithTop.coe_le_coe.2 (Nat.le_add_right count _)
  · rw [quoteRank_of_notMem hMem]
    exact le_top

/-- A text between quotes begins with one quote more than the text. -/
theorem quotes_prefix_inQuotes {text : String} (hQuote : '"' ∈ text.toList) :
    ∃ count : ℕ, quoteRank text = count ∧
      List.replicate (count + 1) '"' <+: (inQuotes text).toList := by
  let quotes := text.toList.takeWhile (· = '"')
  have hQuotes : quotes = List.replicate quotes.length '"' := by
    refine List.eq_replicate_of_mem fun c hMem => ?_
    simpa using List.all_eq_true.1 List.all_takeWhile c hMem
  refine ⟨quotes.length, if_pos hQuote, ?_⟩
  have hPrefix : quotes <+: text.toList := List.takeWhile_prefix _
  have hInner : quotes <+: text.toList ++ ['"'] := hPrefix.trans (List.prefix_append _ _)
  rw [hQuotes] at hInner
  rw [List.replicate_succ, inQuotes, String.toList_append, String.toList_append]
  simpa using hInner

def argRanks (args : List Arg) : List (WithTop ℕ) := args.map fun arg => quoteRank arg.text

def Param.ranks (params : List Param) : List (WithTop ℕ) :=
  params.map fun param => quoteRank param.valueText

/-- Lists of ranks are compared from the front. A head that does not fall and a tail that does not
fall make a list that does not fall. -/
theorem cons_le_cons {rank rank' : WithTop ℕ} {ranks ranks' : List (WithTop ℕ)}
    (hHead : rank ≤ rank') (hTail : ranks ≤ ranks') : rank :: ranks ≤ rank' :: ranks' := by
  rcases hHead.lt_or_eq with hLess | rfl
  · exact (List.cons_lt_cons_iff.2 (Or.inl hLess)).le
  · rcases hTail.lt_or_eq with hLess | rfl
    · exact (List.cons_lt_cons_iff.2 (Or.inr ⟨rfl, hLess⟩)).le
    · exact le_refl _

/-! ### One argument -/

/-- The value of a token has no quote, since quotes delimit strings and stand in no other token.
-/
theorem Script.Token.quoteRank_value {token : Token} (hForm : token.WellFormed) :
    quoteRank token.value = ⊤ :=
  quoteRank_of_notMem (quotable_iff.1 (Token.quotable_value hForm)).1

/-- An argument of one token has no quotes, and one of several tokens all that they begin with. -/
theorem quoteRank_leadingText_le {first : Token} (hForm : first.WellFormed) (rest : List Token) :
    quoteRank (leadingText (first :: rest)) ≤
      quoteRank (Arg.ofTokens first (rest.takeWhile Token.isArgument)).text := by
  cases hMore : rest.takeWhile Token.isArgument with
  | nil =>
      have hText : (Arg.ofTokens first []).text = first.value := by
        change (Arg.ofToken first).text = first.value
        unfold Arg.ofToken
        split <;> rfl
      rw [hText, first.quoteRank_value hForm]
      exact le_top
  | cons token more =>
      have hText : (Arg.ofTokens first (token :: more)).text =
          first.sourceText ++ Script.joinAfter first (token :: more) := by
        rw [Script.Arg.ofTokens_cons]
        split <;> rfl
      rw [leadingText, hMore, hText]

/-- Where a text with quotes is written between quotes, the argument that is read has a higher
rank. -/
theorem quoteRank_lt_of_inQuotes {value : String} (hQuote : '"' ∈ value.toList)
    {position : Position} {rest : List Char} {tokens : List Token}
    (hTokens : tokensFrom position ((inQuotes value).toList ++ rest) = .ok tokens) :
    ∃ first more, tokens = first :: more ∧ first.isArgument = true ∧
      quoteRank value < quoteRank (Arg.ofTokens first (more.takeWhile Token.isArgument)).text := by
  obtain ⟨count, hRank, hPrefix⟩ := quotes_prefix_inQuotes hQuote
  have hQuotes := Script.quotes_prefix_leadingText hTokens (hPrefix.trans (List.prefix_append _ rest))
  have hForms := (Script.tokensFrom_lexed hTokens).wellFormed
  have hText : (inQuotes value).toList ++ rest = '"' :: (value.toList ++ ['"'] ++ rest) := by
    simp [inQuotes]
  rw [hText] at hTokens
  obtain ⟨inner, after, more, _, _, _, rfl⟩ := Script.tokensFrom_quote hTokens
  refine ⟨_, more, rfl, rfl, ?_⟩
  have hCount : (count : WithTop ℕ) < ((count + 1 : ℕ) : WithTop ℕ) :=
    WithTop.coe_lt_coe.2 (Nat.lt_succ_self count)
  rw [hRank]
  exact hCount.trans_le ((le_quoteRank hQuotes).trans (quoteRank_leadingText_le (hForms _ (by simp)) _))

/-- Tokens that spell arguments and begin with a token of an argument begin with the first one, and
the other arguments are behind it. -/
theorem Script.ArgumentListSpelled.head {spelling : List Token} {values : List Arg}
    (spelled : ArgumentListSpelled spelling values) {first : Token} {rest more : List Token}
    (hTokens : spelling ++ more = first :: rest) (hFirst : first.isArgument = true) :
    ∃ values', values = Arg.ofTokens first (rest.takeWhile Token.isArgument) :: values' ∧
      ((values' = [] ∧ ∃ close, rest.dropWhile Token.isArgument = close :: more ∧
          close.kind = .rparen) ∨
        ∃ comma spelling', rest.dropWhile Token.isArgument = comma :: (spelling' ++ more) ∧
          comma.kind = .comma ∧ ArgumentsSpelled spelling' values') := by
  cases spelled with
  | @empty close hClose =>
      cases hTokens
      simp [Token.isArgument, Token.isName, hClose] at hFirst
  | args spelled =>
      cases spelled with
      | @last token close inner hToken hInner hClose =>
          have hStop : close.isArgument = false :=
            Script.isArgument_eq_false (by simp [hClose]) (by simp [hClose]) (by simp [hClose])
          obtain ⟨hTake, hDrop⟩ := Script.dropWhile_isArgument hInner hStop more
          rw [List.append_assoc, List.cons_append, List.cons.injEq, List.singleton_append] at hTokens
          obtain ⟨rfl, rfl⟩ := hTokens
          rw [hTake, hDrop]
          exact ⟨[], rfl, Or.inl ⟨rfl, close, rfl, hClose⟩⟩
      | @next token comma inner tokens args hToken hInner hComma spelled =>
          have hStop : comma.isArgument = false :=
            Script.isArgument_eq_false (by simp [hComma]) (by simp [hComma]) (by simp [hComma])
          obtain ⟨hTake, hDrop⟩ := Script.dropWhile_isArgument hInner hStop (tokens ++ more)
          rw [List.append_assoc, List.cons_append, List.cons.injEq, List.cons_append] at hTokens
          obtain ⟨rfl, rfl⟩ := hTokens
          rw [hTake, hDrop]
          exact ⟨args, rfl, Or.inr ⟨comma, tokens, rfl, hComma, spelled⟩⟩

/-! ### The arguments of a call -/

theorem argumentText_cons (text : String) (texts : List String) :
    argumentText (text :: texts) =
      text.toList ++ if texts = [] then [')'] else ',' :: ' ' :: argumentText texts := by
  by_cases hTexts : texts = []
  · simp [argumentText, hTexts]
  · rw [if_neg hTexts, argumentText, String.intercalate_cons_of_ne_nil hTexts, String.toList_append,
      String.toList_append, argumentText]
    simp

/-- Where the text of a phrase is written first and a token behind it ends the argument, the first
argument that is read is the argument of the phrase. The token says whether there are others. -/
theorem read_phrase_first {phrase : Phrase} (hForm : phrase.WellFormed) {position : Position}
    {tail : List Char} (hEnds : Delimited tail) {spelling more : List Token} {values : List Arg}
    (hTokens : tokensFrom position (layout phrase.pieces ++ tail) = .ok (spelling ++ more))
    (spelled : ArgumentListSpelled spelling values) :
    ∃ after, tokensFrom (position.advance (layout phrase.pieces)) tail = .ok after ∧
      ∀ ending behind, after = ending :: behind → ending.isArgument = false →
        ∃ values', values = phrase.arg :: values' ∧
          ((values' = [] ∧ ending.kind = .rparen ∧ behind = more) ∨
            ∃ spelling', ending.kind = .comma ∧ behind = spelling' ++ more ∧
              ArgumentsSpelled spelling' values') := by
  obtain ⟨after, hSpelling, hAfter⟩ := Script.exists_tokens_layout (hForm.wellLaid hEnds) hTokens
  obtain ⟨first, inner, hPlace, hFirst, hInner, hArg⟩ := hForm.place position
  rw [hPlace, List.cons_append] at hSpelling
  refine ⟨after, hAfter, ?_⟩
  rintro ending behind rfl hEnding
  obtain ⟨hTake, hDrop⟩ := Script.dropWhile_isArgument hInner hEnding behind
  obtain ⟨values', rfl, hMore⟩ := spelled.head hSpelling hFirst
  rw [hTake, hArg]
  rw [hDrop] at hMore
  refine ⟨values', rfl, ?_⟩
  rcases hMore with ⟨rfl, close, hBehind, hClose⟩ | ⟨comma, spelling', hBehind, hComma, spelled'⟩
  · cases hBehind
    exact Or.inl ⟨rfl, hClose, rfl⟩
  · cases hBehind
    exact Or.inr ⟨spelling', hComma, rfl, spelled'⟩

/-- Where the text of a phrase is written first, the first argument that is read is the argument of
the phrase, and the others are read where they are written. -/
theorem read_phrase {phrase : Phrase} (hForm : phrase.WellFormed) {texts : List String}
    {position : Position} {rest : List Char} {spelling more : List Token} {values : List Arg}
    (hTokens : tokensFrom position (argumentText (phrase.text :: texts) ++ rest) = .ok (spelling ++ more))
    (spelled : ArgumentListSpelled spelling values) :
    ∃ place' spelling' values', values = phrase.arg :: values' ∧
      tokensFrom place' (argumentText texts ++ rest) = .ok (spelling' ++ more) ∧
      ArgumentListSpelled spelling' values' := by
  rw [argumentText_cons, ← layout_pieces, List.append_assoc] at hTokens
  by_cases hTexts : texts = []
  · rw [if_pos hTexts] at hTokens
    obtain ⟨after, hAfter, hFirst⟩ := read_phrase_first hForm (delimited_close rest) hTokens spelled
    have hLaid : WellLaid rest [mark .rparen ")"] :=
      wellLaid_mark ⟨by decide, by decide⟩ (by decide) (by decide) trivial
    obtain ⟨behind, rfl, _⟩ := Script.exists_tokens_layout hLaid hAfter
    obtain ⟨values', rfl, ⟨rfl, _, rfl⟩ | ⟨_, hComma, _⟩⟩ := hFirst _ behind rfl rfl
    · rw [hTexts]
      exact ⟨_, [_], [], rfl, hAfter, ArgumentListSpelled.empty rfl⟩
    · cases hComma
  · rw [if_neg hTexts] at hTokens
    obtain ⟨after, hAfter, hFirst⟩ := read_phrase_first hForm (delimited_comma _) hTokens spelled
    have hLaid : WellLaid (argumentText texts ++ rest) [mark .comma ",", space] :=
      wellLaid_mark ⟨by decide, by decide⟩ (by decide) (by decide) ⟨space_gaps, trivial⟩
    obtain ⟨behind, rfl, hBehind⟩ := Script.exists_tokens_layout hLaid hAfter
    obtain ⟨values', rfl, ⟨_, hClose, _⟩ | ⟨spelling', _, rfl, spelled'⟩⟩ := hFirst _ behind rfl rfl
    · cases hClose
    · exact ⟨_, spelling', values', rfl, hBehind, ArgumentListSpelled.args spelled'⟩

/-- Where no argument is written, none is read. -/
theorem read_nothing {position : Position} {rest : List Char} {spelling more : List Token}
    {values : List Arg}
    (hTokens : tokensFrom position (argumentText [] ++ rest) = .ok (spelling ++ more))
    (spelled : ArgumentListSpelled spelling values) : values = [] := by
  have hLaid : WellLaid rest [mark .rparen ")"] :=
    wellLaid_mark ⟨by decide, by decide⟩ (by decide) (by decide) trivial
  obtain ⟨after, hSpelling, _⟩ := Script.exists_tokens_layout hLaid hTokens
  cases spelled with
  | empty hClose => rfl
  | args spelled =>
      cases spelled with
      | last hFirst hMore hClose =>
          cases hSpelling
          cases hFirst
      | next hFirst hMore hComma rest =>
          cases hSpelling
          cases hFirst

namespace Param

/-- The ranks of arguments are those of parameters, none of which has a quote in a string slot, or
they are higher. -/
def Grows (params : List Param) (slots : List Schema.Slot) (values : List Arg) : Prop :=
  (ranks params = argRanks values ∧ QuoteFree params slots) ∨ ranks params < argRanks values

/-- A parameter whose rank is kept and whose slot meets no quote may be put in front. What grows
behind it still grows. -/
theorem Grows.cons {param : Param} {params : List Param} {slots slots' : List Schema.Slot}
    {value : Arg} {values : List Arg} (grows : Grows params slots values)
    (hRank : value.text = param.valueText)
    (hFree : QuoteFree params slots → QuoteFree (param :: params) slots') :
    Grows (param :: params) slots' (value :: values) := by
  have hHead : quoteRank param.valueText = quoteRank value.text := by rw [hRank]
  rcases grows with ⟨hRanks, hParams⟩ | hLess
  · refine Or.inl ⟨?_, hFree hParams⟩
    rw [ranks, argRanks, List.map_cons, List.map_cons, hHead]
    exact congrArg _ hRanks
  · exact Or.inr (List.cons_lt_cons_iff.2 (Or.inr ⟨hHead, hLess⟩))

/-- No quote in a slot for text can be asked parameter by parameter. -/
theorem quoteFree_cons {param : Param} {params : List Param} {slot : Schema.Slot}
    {slots : List Schema.Slot} : QuoteFree (param :: params) (slot :: slots) ↔
      (slot.type = .string → '"' ∉ param.valueText.toList) ∧ QuoteFree params slots := by
  simp [QuoteFree]

/-- What is read where no slot is declared is written as a phrase with its text. -/
theorem exists_phrase_sniff {phrase : Phrase} (hForm : phrase.WellFormed) :
    ∃ written : Phrase, written.WellFormed ∧ written.text = (sniff phrase.arg).print ∧
      written.arg.text = (sniff phrase.arg).valueText := by
  have hBare (hSniff : sniff phrase.arg = .text phrase.text true)
      (hArg : phrase.arg.text = phrase.text) :
      ∃ written : Phrase, written.WellFormed ∧ written.text = (sniff phrase.arg).print ∧
        written.arg.text = (sniff phrase.arg).valueText := by
    refine ⟨phrase, hForm, ?_, ?_⟩
    · rw [hSniff, print, hForm.text_isEmpty]
      rfl
    · rw [hSniff, hArg]
      rfl
  rcases hForm.arg_cases with ⟨text, hArg, hText⟩ | hArg | hArg
  · obtain ⟨written, hWritten, _, hPrint, hValue⟩ := exists_phrase_quoted hText
    refine ⟨written, hWritten, ?_, ?_⟩
    · rw [hPrint, hArg]
      rfl
    · rw [hValue, hArg]
      rfl
  · by_cases hLiteral : Integer.isLiteral phrase.text.toList = true
    · obtain ⟨written, hWritten, _, hPrint, hValue⟩ :=
        exists_phrase_int (Integer.leadingD phrase.text 0)
      have hSniff : sniff phrase.arg = .int (Integer.leadingD phrase.text 0) := by
        rw [hArg, sniff, if_pos hLiteral]
      refine ⟨written, hWritten, ?_, ?_⟩
      · rw [hPrint, hSniff]
        rfl
      · rw [hValue, hSniff]
        rfl
    · exact hBare (by rw [hArg, sniff, if_neg hLiteral]) (by rw [hArg]; rfl)
  · exact hBare (by rw [hArg]; rfl) (by rw [hArg]; rfl)

/-- An integer slot reads every argument as an integer. -/
theorem exists_coerce_integer (arg : Arg) : ∃ n, coerce arg .integer = .int n := by
  cases arg <;> exact ⟨_, rfl⟩

/-- What is read where parameters that were read are written has no lower ranks than they have, and
higher ones if a text in a string slot has a quote. -/
theorem grows_ofArgs {args : List Arg}
    (hArgs : ∀ arg ∈ args, ∃ phrase : Phrase, phrase.WellFormed ∧ phrase.arg = arg)
    {slots : List Schema.Slot} (hLines : ∀ text ∈ (ofArgs args slots).flatMap strings, OneLine text)
    {position : Position} {rest : List Char} {spelling more : List Token} {values : List Arg}
    (hTokens : tokensFrom position (argumentText (printList (ofArgs args slots) slots) ++ rest) =
      .ok (spelling ++ more))
    (spelled : ArgumentListSpelled spelling values) : Grows (ofArgs args slots) slots values := by
  fun_induction ofArgs args slots generalizing position spelling values with
  | case1 slots =>
      rw [read_nothing hTokens spelled]
      exact Or.inl ⟨rfl, by simp [QuoteFree]⟩
  | case2 arg args ih =>
      obtain ⟨⟨phrase, hForm, rfl⟩, hRest⟩ := List.forall_mem_cons.1 hArgs
      rw [List.flatMap_cons, List.forall_mem_append] at hLines
      obtain ⟨written, hWritten, hText, hArg⟩ := exists_phrase_sniff hForm
      rw [printList, ← hText] at hTokens
      obtain ⟨_, _, values', rfl, hTokens', spelled'⟩ := read_phrase hWritten hTokens spelled
      exact (ih hRest hLines.2 hTokens' spelled').cons hArg fun _ => by simp [QuoteFree]
  | case3 arg args slot slots ih =>
      obtain ⟨_, hRest⟩ := List.forall_mem_cons.1 hArgs
      rw [List.flatMap_cons, List.forall_mem_append] at hLines
      rw [printList] at hTokens
      cases hType : slot.type with
      | integer =>
          obtain ⟨n, hCoerce⟩ := exists_coerce_integer arg
          obtain ⟨written, hWritten, _, hText, hArg⟩ := exists_phrase_int n
          rw [hType, hCoerce, printIn, ← hText] at hTokens
          obtain ⟨_, _, values', rfl, hTokens', spelled'⟩ := read_phrase hWritten hTokens spelled
          rw [hCoerce]
          refine (ih hRest hLines.2 hTokens' spelled').cons (by rw [hArg]; rfl) fun hFree => ?_
          rw [quoteFree_cons, hType]
          exact ⟨by simp, hFree⟩
      | string =>
          have hLine : OneLine arg.text := hLines.1 _ (by simp [hType, coerce, quoted, strings])
          rw [hType, printIn] at hTokens
          by_cases hQuote : '"' ∈ arg.text.toList
          · -- What follows the argument may be read in any way: its own rank decides.
            rw [argumentText_cons, List.append_assoc] at hTokens
            obtain ⟨first, inner, hSpelling, hFirst, hRank⟩ :=
              quoteRank_lt_of_inQuotes hQuote hTokens
            obtain ⟨values', rfl, _⟩ := spelled.head hSpelling hFirst
            exact Or.inr (List.cons_lt_cons_iff.2 (Or.inl hRank))
          · obtain ⟨written, hWritten, _, hText, hArg⟩ :=
              exists_phrase_quoted (quotable_iff.2 ⟨hQuote, hLine⟩)
            change tokensFrom position (argumentText (inQuotes arg.text :: _) ++ rest) = _ at hTokens
            rw [← hText] at hTokens
            obtain ⟨_, _, values', rfl, hTokens', spelled'⟩ := read_phrase hWritten hTokens spelled
            refine (ih hRest hLines.2 hTokens' spelled').cons (by rw [hArg]; rfl) fun hFree => ?_
            exact quoteFree_cons.2 ⟨fun _ => hQuote, hFree⟩

/-- The text of an argument is that of its value, or its value is an integer. -/
theorem argRanks_le (args : List Arg) (slots : List Schema.Slot) :
    argRanks args ≤ ranks (ofArgs args slots) := by
  have hSniff (arg : Arg) : quoteRank arg.text ≤ quoteRank (sniff arg).valueText := by
    cases arg with
    | number text =>
        rw [sniff]
        split
        · exact le_top.trans_eq (quoteRank_toString _).symm
        · exact le_refl _
    | quoted text => exact le_refl _
    | word text => exact le_refl _
  have hCoerce (arg : Arg) (type : Schema.SlotType) :
      quoteRank arg.text ≤ quoteRank (coerce arg type).valueText := by
    cases type with
    | string => exact le_refl _
    | integer =>
        obtain ⟨n, hInt⟩ := exists_coerce_integer arg
        rw [hInt]
        exact le_top.trans_eq (quoteRank_toString n).symm
  fun_induction ofArgs args slots with
  | case1 => exact le_refl _
  | case2 arg args ih => exact cons_le_cons (hSniff arg) ih
  | case3 arg args slot slots ih => exact cons_le_cons (hCoerce arg slot.type) ih

end Param

/-! ### The calls of a script -/

namespace Statement

def ranks (statement : Statement) : List (WithTop ℕ) := Param.ranks statement.params

/-- No text in a string slot of a call has a quote. -/
def QuoteFree (schema : Schema) (statement : Statement) : Prop :=
  Param.QuoteFree statement.params (statement.slots schema)

/-- A call of a quest with the parameters of a call of a script, whose texts stay on one line. -/
def Sourced (schema : Schema) (statement : Statement) : Prop :=
  ∃ args : List Arg, (∀ arg ∈ args, ∃ phrase : Phrase, phrase.WellFormed ∧ phrase.arg = arg) ∧
    statement.params = Param.ofArgs args (statement.slots schema) ∧
    ∀ text ∈ statement.params.flatMap Param.strings, OneLine text

/-- Reading a call where one is written does not lower its ranks, and keeps them only if none of its
texts in a string slot has a quote. -/
theorem Sourced.ranks_le {schema : Schema} {statement : Statement}
    (hStatement : statement.Sourced schema) {tokens : List Token}
    (hWritten : statement.WrittenAt schema tokens) {call : Call} (hRead : call.ReadFrom tokens) :
    statement.ranks ≤ (call.toStatement schema).ranks ∧
      (statement.ranks = (call.toStatement schema).ranks → statement.QuoteFree schema) := by
  obtain ⟨args, hArgs, hParams, hLines⟩ := hStatement
  obtain ⟨position, rest, hTokens⟩ := hWritten
  obtain ⟨spelling, more, rfl, spelled⟩ := hRead
  rw [hParams] at hLines
  rw [argTexts, hParams] at hTokens
  have hGrows := Param.grows_ofArgs hArgs hLines hTokens spelled
  have hValues : argRanks call.args ≤ (call.toStatement schema).ranks := by
    obtain ⟨slots, hMade⟩ := call.params_toStatement schema
    rw [ranks, hMade]
    exact Param.argRanks_le call.args slots
  rw [ranks, QuoteFree, hParams]
  rcases hGrows with ⟨hEq, hFree⟩ | hLess
  · exact ⟨hEq.trans_le hValues, fun _ => hFree⟩
  · have hStrict := hLess.trans_le hValues
    exact ⟨hStrict.le, fun hEq => absurd hEq hStrict.ne⟩

end Statement

end QuestScript

import QuestScript.Proofs.Quest.BlockLines
import QuestScript.Proofs.Quest.LateTyping
import QuestScript.Proofs.Script.Spaced
/-!
The tokens of a call with one token for each argument. Written with blanks as one likes, they are
read as the call; and what an argument prints in a slot does not depend on whether the slot typed it.
-/

namespace QuestScript

open Script (Arg)

/-! ### Arguments of one token -/

/-- A text that can stand between quotes in one line. -/
def InLine (text : String) : Prop := ∀ c ∈ text.toList, c ≠ '"' ∧ Text.isLineBreak c = false

instance (text : String) : Decidable (InLine text) := List.decidableBAll _ text.toList

namespace Script

def Arg.symbol : Arg → Symbol
  | .quoted text => ⟨.string, text⟩
  | .number text => ⟨.number, text⟩
  | .word text => ⟨.ident, text⟩

/-- An argument of one token, in which an integer is written with its digits and no more. -/
def Arg.Proper : Arg → Prop
  | .quoted text => InLine text
  | .number text => Kind.number.admits text.toList = true ∧
    (Integer.isLiteral text.toList = true → ∃ n : Int, text = toString n)
  | .word text => IsIdentifier text

def Arg.isName : Arg → Bool
  | .number _ => false
  | _ => true

/-- The tokens of arguments with commas between them, up to the closing parenthesis. -/
def argumentSymbols (args : List Arg) : List Symbol :=
  (args.map Arg.symbol).intersperse ⟨.comma, ","⟩ ++ [⟨.rparen, ")"⟩]

/-- The tokens of a call, with those behind its closing parenthesis. -/
def callSymbols (type : String) (args : List Arg) (ending : List Symbol) : List Symbol :=
  ⟨.ident, type⟩ :: ⟨.lparen, "("⟩ :: (argumentSymbols args ++ ending)

end Script

/-- A proper argument is written the one way its slot prints it. -/
theorem Script.Arg.Proper.canonicalIn {arg : Arg} (hArg : arg.Proper) (type : Schema.SlotType) :
    arg.CanonicalIn type := by
  cases arg with
  | quoted text => trivial
  | word text => trivial
  | number text =>
      cases type with
      | string => exact hArg.2
      | integer => trivial

/-- A word has no digits in front, so an integer slot reads it as zero and within the limit. -/
theorem Script.Arg.Proper.leadingDigits_word {arg : Arg} (hArg : arg.Proper) :
    ∀ text, arg = .word text → Integer.leadingDigits (Text.trimStart text.toList) = [] := by
  rintro text rfl
  exact Integer.leadingDigits_identifier hArg

/-- An argument that is read by the way it is written is read unless it is an integer with too many
digits. -/
theorem Script.Arg.Proper.sniffFault?_eq_none_iff {arg : Arg} (hArg : arg.Proper) :
    Param.sniffFault? arg = none ↔
      ∀ n : Int, arg = .number (toString n) → Integer.fits n = true := by
  constructor
  · rintro hRead n rfl
    exact Param.sniffFault?_toString_eq_none_iff.1 hRead
  · intro hFits
    cases arg with
    | quoted text => rfl
    | word text => rfl
    | number text =>
        by_cases hLiteral : Integer.isLiteral text.toList = true
        · obtain ⟨n, rfl⟩ := hArg.2 hLiteral
          exact Param.sniffFault?_toString_eq_none_iff.2 (hFits n rfl)
        · exact if_neg hLiteral

theorem InLine.quotable {text : String} (hText : InLine text) : Quotable text := by
  rw [Quotable, List.all_eq_true]
  intro c hMem
  have hFeed : c ≠ '\n' := by
    rintro rfl
    exact absurd (hText _ hMem).2 (by decide)
  simp [Script.isStringChar, (hText c hMem).1, hFeed]

namespace Param

/-- In slots arguments of one token are written the same, whether they were typed by the slots or by
how they were written. -/
theorem printList_ofArgs {args : List Arg} (hArgs : ∀ arg ∈ args, arg.Proper)
    (slots : List Schema.Slot) :
    printList (ofArgs args []) slots = printList (ofArgs args slots) slots := by
  have hWords : Script.WordsPlain args := fun arg hMem => (hArgs arg hMem).leadingDigits_word
  refine (printList_sniff_eq_iff hWords slots).2 fun pair hMem => ?_
  exact (hArgs _ (List.of_mem_zip hMem).1).canonicalIn _

/-- Arguments of one token that were read without slots can be written in slots just if the slots can
read them: none of them is an integer with too many digits, so what the slots add are the integers
that other texts begin with. -/
theorem listFault?_sniff_iff {args : List Arg} (hArgs : ∀ arg ∈ args, arg.Proper)
    (hRead : argsFault? args [] = none) (slots : List Schema.Slot) :
    listFault? (ofArgs args []) slots = none ↔ argsFault? args slots = none := by
  have hWords : Script.WordsPlain args := fun arg hMem => (hArgs arg hMem).leadingDigits_word
  have hFits : Script.LiteralsFit args slots := fun pair hMem =>
    Script.Arg.fitsIn_of_sniffFault?
      (argsFault?_nil_eq_none_iff.1 hRead _ (List.of_mem_zip hMem).1) _
  have hLate := listFaults_sniff_iff hWords slots
  rwa [and_iff_right hRead, and_iff_left hFits] at hLate

end Param

/-! ### Tokens of calls -/

namespace Script

theorem Token.kind_of_symbol {token : Token} {kind : Kind} {value : String}
    (hSymbol : token.symbol = ⟨kind, value⟩) : token.kind = kind ∧ token.value = value := by
  cases hSymbol
  exact ⟨rfl, rfl⟩

theorem Token.isKeyword_of_symbol {token : Token} {value word : String}
    (hSymbol : token.symbol = ⟨.ident, value⟩) (hWord : Text.lowered value = word) :
    token.isKeyword word = true := by
  obtain ⟨hKind, hValue⟩ := Token.kind_of_symbol hSymbol
  simp [Token.isKeyword, hKind, hValue, hWord]

/-- The token of an argument is read as the argument. -/
theorem Arg.of_symbol {token : Token} {arg : Arg} (hSymbol : token.symbol = arg.symbol) :
    token.isArgument = true ∧ Arg.ofTokens token [] = arg ∧ token.value = arg.text := by
  cases arg <;> obtain ⟨hKind, hValue⟩ := Token.kind_of_symbol hSymbol <;>
    simp [Token.isArgument, Token.isName, Arg.ofTokens, Arg.ofToken, Arg.text, hKind, hValue]

theorem argumentSymbols_cons (arg next : Arg) (args : List Arg) :
    argumentSymbols (arg :: next :: args) =
      arg.symbol :: ⟨.comma, ","⟩ :: argumentSymbols (next :: args) := rfl

/-- Tokens of arguments spell them. -/
theorem argumentsSpelled_of_symbols {arg : Arg} {args : List Arg} {tokens : List Token}
    (hTokens : tokens.map Token.symbol = argumentSymbols (arg :: args)) :
    ArgumentsSpelled tokens (arg :: args) := by
  have hNone : ∀ token ∈ ([] : List Token), token.isArgument = true := nofun
  induction args generalizing arg tokens with
  | nil =>
      obtain ⟨first, _, rfl, hFirst, hRest⟩ := List.map_eq_cons_iff.1 hTokens
      obtain ⟨close, _, rfl, hClose, hNil⟩ := List.map_eq_cons_iff.1 hRest
      obtain rfl := List.map_eq_nil_iff.1 hNil
      obtain ⟨hArgument, hArg, -⟩ := Arg.of_symbol hFirst
      rw [← hArg]
      exact ArgumentsSpelled.last hArgument hNone (Token.kind_of_symbol hClose).1
  | cons next args ih =>
      rw [argumentSymbols_cons] at hTokens
      obtain ⟨first, _, rfl, hFirst, hRest⟩ := List.map_eq_cons_iff.1 hTokens
      obtain ⟨comma, more, rfl, hComma, hMore⟩ := List.map_eq_cons_iff.1 hRest
      obtain ⟨hArgument, hArg, -⟩ := Arg.of_symbol hFirst
      rw [← hArg]
      exact ArgumentsSpelled.next hArgument hNone (Token.kind_of_symbol hComma).1 (ih hMore)

/-- Tokens with the symbols of an argument list spell these arguments, wherever they stand. -/
theorem argumentListSpelled_of_symbols {args : List Arg} {tokens : List Token}
    (hTokens : tokens.map Token.symbol = argumentSymbols args) :
    ArgumentListSpelled tokens args := by
  cases args with
  | nil =>
      obtain ⟨close, _, rfl, hClose, hNil⟩ := List.map_eq_cons_iff.1 hTokens
      obtain rfl := List.map_eq_nil_iff.1 hNil
      exact ArgumentListSpelled.empty (Token.kind_of_symbol hClose).1
  | cons arg args => exact ArgumentListSpelled.args (argumentsSpelled_of_symbols hTokens)

/-- Tokens are read as a call, up to other tokens behind them. -/
def ReadsCall (tokens rest : List Token) (call : Call) : Prop :=
  ∃ paren more, tokens = call.name :: paren :: more ∧ call.name.kind = .ident ∧
    paren.kind = .lparen ∧ readCall call.name (more ++ rest) = .ok (call, rest)

/-- Tokens with the symbols of a call are its name, its parenthesis, its arguments and what ends
it. -/
theorem callSymbols_tokens {type : String} {args : List Arg} {ending : List Symbol}
    {tokens : List Token} (hTokens : tokens.map Token.symbol = callSymbols type args ending) :
    ∃ name paren arguments after, tokens = name :: paren :: (arguments ++ after) ∧
      name.kind = .ident ∧ name.value = type ∧ paren.kind = .lparen ∧
      ArgumentListSpelled arguments args ∧ after.map Token.symbol = ending := by
  obtain ⟨name, _, rfl, hName, hRest⟩ := List.map_eq_cons_iff.1 hTokens
  obtain ⟨paren, _, rfl, hParen, hMore⟩ := List.map_eq_cons_iff.1 hRest
  obtain ⟨arguments, after, rfl, hArguments, hAfter⟩ := List.map_eq_append_iff.1 hMore
  obtain ⟨hKind, hValue⟩ := Token.kind_of_symbol hName
  exact ⟨name, paren, arguments, after, rfl, hKind, hValue, (Token.kind_of_symbol hParen).1,
    argumentListSpelled_of_symbols hArguments, hAfter⟩

/-- The tokens of an action are read as a call without a goto clause, where neither a clause nor a
semicolon comes behind them. -/
theorem readsCall_action {type : String} {args : List Arg} {semicolon : Bool}
    {tokens rest : List Token}
    (hTokens : tokens.map Token.symbol =
      callSymbols type args (if semicolon then [⟨.semi, ";"⟩] else []))
    (hGoto : (nextToken rest).isKeyword "goto" = false) (hNext : (nextToken rest).kind ≠ .semi) :
    ∃ name, name.value = type ∧ ReadsCall tokens rest ⟨name, args, none, semicolon⟩ := by
  obtain ⟨name, paren, arguments, after, rfl, hKind, hValue, hParen, spelled, hAfter⟩ :=
    callSymbols_tokens hTokens
  have hEnd : SemicolonSpelled after semicolon := by
    cases semicolon with
    | false =>
        obtain rfl := List.map_eq_nil_iff.1 hAfter
        exact SemicolonSpelled.absent
    | true =>
        obtain ⟨mark, _, rfl, hMark, hNil⟩ := List.map_eq_cons_iff.1 hAfter
        obtain rfl := List.map_eq_nil_iff.1 hNil
        exact SemicolonSpelled.present (Token.kind_of_symbol hMark).1
  have hClause : (nextToken (after ++ rest)).isKeyword "goto" = false := by
    cases hEnd with
    | absent => exact hGoto
    | present hSemi => simp [nextToken, Token.isKeyword, hSemi]
  refine ⟨name, hValue, paren, arguments ++ after, rfl, hKind, hParen, ?_⟩
  rw [List.append_assoc]
  exact readCall_action spelled hEnd hClause fun _ => hNext

/-- The tokens of a rule are read as a call with its goto clause, where no semicolon comes behind
them. The target has to stand on the line of the word in front of it. -/
theorem readsCall_rule {type : String} {args : List Arg} {target : Arg} {line : Nat}
    {tokens rest : List Token}
    (hTokens : tokens.map Token.symbol =
      callSymbols type args [⟨.ident, "goto"⟩, target.symbol])
    (hLines : ∀ token ∈ tokens, token.line = line) (hTarget : target.isName = true)
    (hNext : (nextToken rest).kind ≠ .semi) :
    ∃ name, name.value = type ∧ ReadsCall tokens rest ⟨name, args, some target.text, false⟩ := by
  obtain ⟨name, paren, arguments, after, rfl, hKind, hValue, hParen, spelled, hAfter⟩ :=
    callSymbols_tokens hTokens
  obtain ⟨keyword, _, rfl, hKeyword, hRest⟩ := List.map_eq_cons_iff.1 hAfter
  obtain ⟨goal, _, rfl, hGoal, hNil⟩ := List.map_eq_cons_iff.1 hRest
  obtain rfl := List.map_eq_nil_iff.1 hNil
  have hName : goal.isName = true := by
    cases target with
    | number text => cases hTarget
    | quoted text => simp [Token.isName, (Token.kind_of_symbol hGoal).1]
    | word text => simp [Token.isName, (Token.kind_of_symbol hGoal).1]
  have hLine : goal.line = keyword.line :=
    (hLines goal (by simp)).trans (hLines keyword (by simp)).symm
  refine ⟨name, hValue, paren, arguments ++ [keyword, goal], rfl, hKind, hParen, ?_⟩
  rw [List.append_assoc, ← (Arg.of_symbol hGoal).2.2]
  exact readCall_rule spelled (Token.isKeyword_of_symbol hKeyword (by decide)) hName hLine hNext


end Script

/-- A call behind one of the two keywords is an event of its block. -/
theorem Script.ReadsCall.step {tokens rest : List Token} {call : Call} {block : Script.Section}
    {opener keyword : Token} (hReads : Script.ReadsCall tokens rest call)
    (hKeyword : keyword.isKeyword "action" = true ∨ keyword.isKeyword "rule" = true) :
    Script.step (.inside block opener) keyword (tokens ++ rest) =
      .event (.call call) (.inside block opener) rest := by
  obtain ⟨paren, more, rfl, hName, hParen, hRead⟩ := hReads
  rw [List.cons_append, List.cons_append, Script.step_keyword_call hKeyword hName hParen, hRead]
  rfl

/-! ### Written calls -/

namespace Script

/-- What holds of the arguments, commas and the closing parenthesis holds of a whole argument
list. -/
theorem forall_mem_argumentSymbols {property : Symbol → Prop} {args : List Arg}
    (hArgs : ∀ arg ∈ args, property arg.symbol) (hComma : property ⟨.comma, ","⟩)
    (hClose : property ⟨.rparen, ")"⟩) : ∀ symbol ∈ argumentSymbols args, property symbol := by
  have hLast : ∀ symbol ∈ [(⟨.rparen, ")"⟩ : Symbol)], property symbol :=
    List.forall_mem_singleton.2 hClose
  induction args with
  | nil => exact hLast
  | cons arg args ih =>
      obtain ⟨hArg, hMore⟩ := List.forall_mem_cons.1 hArgs
      cases args with
      | nil => exact List.forall_mem_cons.2 ⟨hArg, hLast⟩
      | cons next args =>
          rw [argumentSymbols_cons]
          exact List.forall_mem_cons.2 ⟨hArg, List.forall_mem_cons.2 ⟨hComma, ih hMore⟩⟩

theorem unbroken_of_isIdentifier {name : String} (hName : IsIdentifier name) :
    (⟨.ident, name⟩ : Symbol).Unbroken :=
  (isIdentifier_wellFormed hName).unbroken (by simp)

theorem unbroken_of_inLine {text : String} (hText : InLine text) :
    (⟨.string, text⟩ : Symbol).Unbroken := by
  refine ⟨⟨hText.quotable, by simp⟩, ?_⟩
  simp only [Symbol.source, List.cons_append, List.forall_mem_cons, List.forall_mem_append]
  exact ⟨by decide, fun c hMem => (hText c hMem).2, by decide, List.forall_mem_nil _⟩

theorem Arg.Proper.unbroken {arg : Arg} (hArg : arg.Proper) : arg.symbol.Unbroken := by
  cases arg with
  | quoted text => exact unbroken_of_inLine hArg
  | number text =>
      have hForm : (⟨.number, text⟩ : Symbol).WellFormed := ⟨hArg.1, by simp⟩
      exact hForm.unbroken (by simp)
  | word text => exact unbroken_of_isIdentifier hArg

theorem unbroken_mark {kind : Kind} {text : String} (hAdmits : kind.admits text.toList = true)
    (hEof : kind ≠ .eof) (hString : kind ≠ .string) : (⟨kind, text⟩ : Symbol).Unbroken :=
  Symbol.WellFormed.unbroken ⟨hAdmits, hEof⟩ hString

/-- No token of a proper call breaks its line, so a call is cut into lines nowhere but at its end.
-/
theorem callSymbols_unbroken {type : String} {args : List Arg} {ending : List Symbol}
    (hType : IsIdentifier type) (hArgs : ∀ arg ∈ args, arg.Proper)
    (hEnding : ∀ symbol ∈ ending, symbol.Unbroken) :
    ∀ symbol ∈ callSymbols type args ending, symbol.Unbroken := by
  have hArguments : ∀ symbol ∈ argumentSymbols args, symbol.Unbroken :=
    forall_mem_argumentSymbols (fun arg hMem => (hArgs arg hMem).unbroken)
      (unbroken_mark (by decide) (by decide) (by decide))
      (unbroken_mark (by decide) (by decide) (by decide))
  exact List.forall_mem_cons.2 ⟨unbroken_of_isIdentifier hType,
    List.forall_mem_cons.2 ⟨unbroken_mark (by decide) (by decide) (by decide),
      List.forall_mem_append.2 ⟨hArguments, hEnding⟩⟩⟩


def Arg.source : Arg → String
  | .quoted text => inQuotes text
  | .number text => text
  | .word text => text

def callText (type : String) (args : List Arg) : String :=
  type ++ "(" ++ ", ".intercalate (args.map Arg.source) ++ ")"

theorem Arg.symbol_source (arg : Arg) : arg.symbol.source = arg.source.toList := by
  cases arg <;> simp [Arg.symbol, Arg.source, Symbol.source, inQuotes]

/-- Printed arguments keep their tokens apart. Between two of them stand a comma and a blank. -/
theorem spaced_arguments (args : List Arg) {ending : List Symbol} {rest : List Char}
    (spaced : Spaced ending rest) :
    Spaced (argumentSymbols args ++ ending)
      ((", ".intercalate (args.map Arg.source)).toList ++ ')' :: rest) := by
  have hClose : Spaced (⟨.rparen, ")"⟩ :: ending) (')' :: rest) :=
    spaced.touching (Kind.endsBefore_of_ne (by decide) (by decide) rest)
  induction args with
  | nil => exact hClose
  | cons arg args ih =>
      cases args with
      | nil =>
          rw [List.map_singleton, String.intercalate_singleton, ← Arg.symbol_source]
          exact hClose.touching (delimited_close rest _)
      | cons next args =>
          rw [argumentSymbols_cons, List.map_cons,
            String.intercalate_cons_of_ne_nil (by simp), String.toList_append,
            String.toList_append, List.append_assoc, List.append_assoc, ← Arg.symbol_source]
          have hComma : Spaced (⟨.comma, ","⟩ :: (argumentSymbols (next :: args) ++ ending)) _ :=
            ih.space.touching (Kind.endsBefore_of_ne (by decide) (by decide) _)
          exact hComma.touching (delimited_comma _ _)

/-- The printed call keeps its tokens apart, whatever text in the same state follows it. -/
theorem spaced_call (type : String) {args : List Arg} {ending : List Symbol} {rest : List Char}
    (spaced : Spaced ending rest) :
    Spaced (callSymbols type args ending) ((callText type args).toList ++ rest) := by
  have hArguments := spaced_arguments args spaced
  have hParen : Spaced (⟨.lparen, "("⟩ :: (argumentSymbols args ++ ending)) _ :=
    hArguments.touching (Kind.endsBefore_of_ne (by decide) (by decide) _)
  have hName : Spaced (callSymbols type args ending) _ :=
    hParen.touching (delimited_paren _ _)
  simpa [callText, Symbol.source] using hName

end Script

end QuestScript

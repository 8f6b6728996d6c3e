import QuestScript.Proofs.Quest.CallTokens
import QuestScript.Proofs.Quest.InPlace
import QuestScript.Proofs.Script.Lines
import Mathlib.Data.List.Forall2
/-!
Using a template is pasting its text. The lines of a template can be read as a template and applied
to a state, or stand between the braces of a state in a script; both ways lead to a state of one
text.

The two readers type arguments at different times: a script where it is read, by the slots of the
schema, a template where it is written, since it is read without one. So the states are not the same
line by line, but what they print is. And an integer with too many digits is noticed at different
times: one without quotes as soon as a template is read, whatever its slot is, and one that another
text begins with when a template is applied.
-/

namespace QuestScript

open Script (Arg Call Kind Spaced Symbol Token nextToken tokensFrom)

/-! ### Statements -/

/-- A statement of a template: a description, an action with or without a semicolon, or a rule with
its target. -/
inductive Template.Statement where
  | desc (text : String)
  | action (type : String) (args : List Arg) (semicolon : Bool)
  | rule (type : String) (args : List Arg) (target : Arg)
deriving DecidableEq, Repr

namespace Template.Statement

def keyword : Statement → Keyword
  | .desc _ => .desc
  | .action _ _ _ => .action
  | .rule _ _ _ => .rule

def operands : Statement → List Symbol
  | .desc text => [⟨.string, text⟩]
  | .action type args semicolon =>
    Script.callSymbols type args (if semicolon then [⟨.semi, ";"⟩] else [])
  | .rule type args target => Script.callSymbols type args [⟨.ident, "goto"⟩, target.symbol]

def symbols (statement : Statement) : List Symbol :=
  ⟨.ident, statement.keyword.word⟩ :: statement.operands

/-- A statement that can be written in one line, under a schema that does not know an action as a
rule only. -/
def Proper (schema : Schema) : Statement → Prop
  | .desc text => InLine text
  | .action type args _ =>
    IsIdentifier type ∧ schema.AllowsAction type ∧ ∀ arg ∈ args, arg.Proper
  | .rule type args target =>
    IsIdentifier type ∧ (∀ arg ∈ args, arg.Proper) ∧ target.Proper ∧ target.isName = true

/-- A line is written as a statement: as its tokens, with blanks between them as one likes. -/
structure Written (schema : Schema) (statement : Statement) (line : String) : Prop where
  proper : statement.Proper schema
  spaced : Spaced statement.symbols line.toList

def args : Statement → List Arg
  | .desc _ => []
  | .action _ args _ => args
  | .rule _ args _ => args

/-- The slots that a schema declares for the call of a statement. -/
def slots (schema : Schema) : Statement → List Schema.Slot
  | .desc _ => []
  | .action type _ _ => schema.actionSlots type
  | .rule type _ _ => schema.ruleSlots type

/-- Each integer among the arguments that stands without quotes has few enough digits. -/
def LiteralsFit (statement : Statement) : Prop :=
  ∀ n : Int, Arg.number (toString n) ∈ statement.args → Integer.fits n = true

/-- The template with what a statement says, read without a schema. -/
def pushTo (template : Template) : Statement → Template
  | .desc text => { template with description := text }
  | .action type args semicolon =>
    let params := Param.ofArgs args []
    let text := printCall type params [] ++ (if semicolon then ";" else "")
    { template with actions := template.actions ++ [⟨type, params, text⟩] }
  | .rule type args target =>
    let rule : Rule := ⟨type, Param.ofArgs args [], target.text, ""⟩
    { template with rules := template.rules ++ [Rule.refresh Schema.empty rule] }

/-- The block with what a statement says, read in a script. -/
def addTo (schema : Schema) (current : OpenBlock) : Statement → OpenBlock
  | .desc text => current.describe text
  | .action type args _ =>
    current.addAction
      (Action.refresh schema ⟨type, Param.ofArgs args (schema.actionSlots type), ""⟩)
  | .rule type args target =>
    current.addRule
      (Rule.refresh schema ⟨type, Param.ofArgs args (schema.ruleSlots type), target.text, ""⟩)

end Template.Statement

namespace Template

variable {schema : Schema}

/-- No token of a proper statement breaks its line, which is why a template can hold it on one. -/
theorem Statement.Proper.unbroken {statement : Statement} (hProper : statement.Proper schema) :
    ∀ symbol ∈ statement.symbols, symbol.Unbroken := by
  have hKeyword : IsIdentifier statement.keyword.word := by
    cases statement.keyword <;> decide
  refine List.forall_mem_cons.2 ⟨Script.unbroken_of_isIdentifier hKeyword, ?_⟩
  cases statement with
  | desc text => exact List.forall_mem_singleton.2 (Script.unbroken_of_inLine hProper)
  | action type args semicolon =>
      refine Script.callSymbols_unbroken hProper.1 hProper.2.2 ?_
      cases semicolon with
      | false => exact nofun
      | true =>
          exact List.forall_mem_singleton.2
            (Script.unbroken_mark (by decide) (by decide) (by decide))
  | rule type args target =>
      obtain ⟨hType, hArgs, hTarget, -⟩ := hProper
      have hGoto : IsIdentifier "goto" := by decide
      exact Script.callSymbols_unbroken hType hArgs (List.forall_mem_cons.2
        ⟨Script.unbroken_of_isIdentifier hGoto, List.forall_mem_singleton.2 hTarget.unbroken⟩)

theorem Statement.Proper.args {statement : Statement} (hProper : statement.Proper schema) :
    ∀ arg ∈ statement.args, arg.Proper := by
  cases statement with
  | desc text => exact fun _ hMem => nomatch hMem
  | action type args semicolon => exact hProper.2.2
  | rule type args target => exact hProper.2.1

/-- The arguments of a statement are read without slots just if its integers without quotes are. -/
theorem Statement.Proper.argsFault?_eq_none_iff {statement : Statement}
    (hProper : statement.Proper schema) :
    Param.argsFault? statement.args [] = none ↔ statement.LiteralsFit := by
  rw [Param.argsFault?_nil_eq_none_iff]
  constructor
  · exact fun hRead n hMem =>
      ((hProper.args _ hMem).sniffFault?_eq_none_iff).1 (hRead _ hMem) n rfl
  · rintro hFits arg hMem
    refine (hProper.args _ hMem).sniffFault?_eq_none_iff.2 ?_
    rintro n rfl
    exact hFits n hMem

/-! ### Plain lines -/

/-- A statement in a line, with single spaces. -/
def Statement.text : Statement → String
  | .desc text => "desc " ++ inQuotes text
  | .action type args semicolon =>
    "action " ++ Script.callText type args ++ (if semicolon then ";" else "")
  | .rule type args target =>
    "rule " ++ Script.callText type args ++ " goto " ++ target.source

/-- The line of a statement is one way to write it. -/
theorem Statement.Proper.written {statement : Statement} (hProper : statement.Proper schema) :
    statement.Written schema statement.text := by
  have hNothing : Spaced [] [] := .nil nofun
  have hKeyword {text : List Char} (spaced : Spaced statement.operands text) :
      Spaced statement.symbols (statement.keyword.word.toList ++ ' ' :: text) :=
    spaced.space.touching (delimited_space text _)
  refine ⟨hProper, ?_⟩
  cases statement with
  | desc text =>
      have hText : Spaced [⟨.string, text⟩] _ := hNothing.touching rfl
      simpa [Statement.text, Statement.keyword, Keyword.word, Symbol.source, inQuotes]
        using hKeyword hText
  | action type args semicolon =>
      have hEnding : Spaced (if semicolon then [(⟨.semi, ";"⟩ : Symbol)] else [])
          (if semicolon then ";" else "").toList := by
        cases semicolon with
        | false => exact hNothing
        | true => exact hNothing.touching rfl
      have hText := hKeyword (Script.spaced_call type hEnding)
      simpa [Statement.text, Statement.keyword, Keyword.word] using hText
  | rule type args target =>
      have hTarget : Spaced [target.symbol] _ := hNothing.touching rfl
      rw [Script.Arg.symbol_source, List.append_nil] at hTarget
      have hGoto : Spaced [⟨.ident, "goto"⟩, target.symbol] _ :=
        hTarget.space.touching (delimited_space _ _)
      have hText := hKeyword (Script.spaced_call type hGoto.space)
      simpa [Statement.text, Statement.keyword, Keyword.word, Symbol.source] using hText

/-! ### Lines read as a template -/

theorem isIdentChar_of_isKeywordChar {c : Char} (hChar : isKeywordChar c = true) :
    Script.isIdentChar c = true := by
  apply Script.isIdentChar_of_isPlainChar
  simp only [isKeywordChar, isPlainChar, Char.isAlphanum, Bool.or_eq_true] at hChar ⊢
  exact hChar.imp_left Or.inl

/-- A word of letters is the keyword of a line whatever comes behind it. -/
theorem keyword?_word (keyword : Keyword) {rest : List Char}
    (hEnds : Kind.ident.endsBefore rest = true) :
    keyword? (keyword.word.toList ++ rest) = some keyword := by
  have hWord : keyword.word.toList.all isKeywordChar = true := by cases keyword <;> decide
  have hRest : rest.head?.all (fun c => !isKeywordChar c) = true := by
    cases rest with
    | nil => rfl
    | cons c rest =>
        have hChar : Script.isIdentChar c = false := by
          simpa [Kind.endsBefore, Kind.extendsTo] using hEnds
        have hStop : isKeywordChar c = false := by
          rw [Bool.eq_false_iff]
          intro hKeyword
          rw [isIdentChar_of_isKeywordChar hKeyword] at hChar
          cases hChar
        simp [hStop]
  have hTake := (Script.takeWhile_append_of_endsBefore rest hWord hRest).1
  simp only [keyword?, hTake]
  cases keyword <;> decide

/-- A line that begins with a keyword is not skipped. The blank behind the keyword is not needed
for that. -/
theorem isSkipped_word (keyword : Keyword) (rest : List Char) :
    isSkipped (keyword.word.toList ++ rest) = false := by
  cases keyword <;> rfl

/-- A call and nothing behind it is what a line of a template has to be. -/
theorem readCall_eq_ok {keyword : Keyword} {tokens rest : List Token} {call : Call}
    (hReads : Script.ReadsCall tokens rest call) (hEnd : (nextToken rest).kind = .eof) :
    readCall keyword (tokens ++ rest) = .ok call := by
  obtain ⟨paren, more, rfl, hName, hParen, hRead⟩ := hReads
  simp [readCall, hName, hParen, hRead, hEnd]

/-- The call of a line is taken unless its arguments cannot be read without slots. -/
theorem readStatement_eq {keyword : Keyword} {tokens : List Token} {call : Call}
    (hCall : readCall keyword tokens = .ok call) :
    readStatement keyword tokens =
      (Integer.guarded (Param.argsFault? call.args []) call).mapError Cause.oversize := by
  rw [readStatement, hCall]
  rfl

/-- A statement is taken as its tokens say, unless its arguments cannot be read without slots. -/
theorem statement_eq {statement : Statement} {tokens : List Token} {number : Nat}
    (hProper : statement.Proper schema)
    (hTokens : tokens.map Token.symbol = statement.operands)
    (hLines : ∀ token ∈ tokens, token.line = number) {final : Token} (hFinal : final.kind = .eof)
    (template : Template) :
    template.statement statement.keyword (tokens ++ [final]) =
      (Integer.guarded (Param.argsFault? statement.args []) (statement.pushTo template)).mapError
        Cause.oversize := by
  have hEnd : (nextToken [final]).kind = .eof := hFinal
  have hNext : (nextToken [final]).kind ≠ .semi := by simp [hEnd]
  have hGoto : (nextToken [final]).isKeyword "goto" = false := by simp [Token.isKeyword, hEnd]
  cases statement with
  | desc text =>
      obtain ⟨token, _, rfl, hToken, hNil⟩ := List.map_eq_cons_iff.1 hTokens
      obtain rfl := List.map_eq_nil_iff.1 hNil
      obtain ⟨hKind, hValue⟩ := Script.Token.kind_of_symbol hToken
      simp [Template.statement, Statement.keyword, Statement.pushTo, Statement.args,
        Param.argsFault?, Except.mapError, nextToken, hKind, hValue]
  | action type args semicolon =>
      obtain ⟨name, rfl, hReads⟩ := Script.readsCall_action hTokens hGoto hNext
      simp only [Template.statement, Statement.keyword,
        readStatement_eq (readCall_eq_ok hReads hEnd), Statement.args]
      cases Param.argsFault? args [] <;> rfl
  | rule type args target =>
      obtain ⟨-, -, -, hTarget⟩ := hProper
      obtain ⟨name, rfl, hReads⟩ := Script.readsCall_rule hTokens hLines hTarget hNext
      simp only [Template.statement, Statement.keyword,
        readStatement_eq (readCall_eq_ok hReads hEnd), Statement.args]
      cases Param.argsFault? args [] <;> rfl

/-- A line that is written as a statement is taken as the statement. -/
theorem takeLine_eq {statement : Statement} {line : String}
    (written : statement.Written schema line) (template : Template) :
    template.takeLine (Text.trim line.toList) =
      (Integer.guarded (Param.argsFault? statement.args []) (statement.pushTo template)).mapError
        Cause.oversize := by
  have hSymbols := written.proper.unbroken
  have hNothing : Script.Delimited [] := fun _ => rfl
  obtain ⟨rest, hTrim, hEnds, spaced⟩ := Spaced.trim written.spaced hSymbols
  obtain ⟨tokens, place, hTokens, hLines, hRead⟩ := spaced.tokensFrom hSymbols hNothing .start
  obtain ⟨keyword, operands, rfl, hKeyword, hOperands⟩ := List.map_eq_cons_iff.1 hTokens
  let final : Token := ⟨.eof, "", place.line, place.column⟩
  have hFinal : final.kind = .eof := rfl
  have hAfter : tokensAfterKeyword (statement.keyword.word.toList ++ rest) =
      .ok (operands ++ [final]) := by
    rw [List.append_nil, Script.tokensFrom_nil] at hRead
    rw [tokensAfterKeyword]
    simp only [Script.Symbol.source] at hRead
    rw [hRead]
    rfl
  rw [hTrim]
  change template.takeLine (statement.keyword.word.toList ++ rest) = _
  rw [Template.takeLine, isSkipped_word, keyword?_word _ hEnds, hAfter]
  exact statement_eq written.proper hOperands
    (fun token hMem => hLines token (List.mem_cons_of_mem _ hMem)) hFinal template

/-- The lines of statements are taken in turn, if the integers without quotes have few enough
digits; else the first one that has too many ends it. -/
theorem takeLines_written {statements : List Statement} {lines : List String}
    (hWritten : List.Forall₂ (Statement.Written schema) statements lines) (template : Template)
    (number : Nat) :
    ((∀ statement ∈ statements, statement.LiteralsFit) →
      template.takeLines number (lines.map String.toList) =
        .ok (statements.foldl Statement.pushTo template)) ∧
    ((¬∀ statement ∈ statements, statement.LiteralsFit) →
      ∃ fault number', template.takeLines number (lines.map String.toList) =
        .error ⟨.oversize fault, number'⟩) := by
  induction hWritten generalizing template number with
  | nil => exact ⟨fun _ => rfl, fun hNot => absurd (List.forall_mem_nil _) hNot⟩
  | @cons statement line _ _ written rest ih =>
      rw [List.forall_mem_cons, List.map_cons, Template.takeLines, takeLine_eq written,
        ← written.proper.argsFault?_eq_none_iff]
      cases hFault : Param.argsFault? statement.args [] with
      | none =>
          obtain ⟨hTaken, hStopped⟩ := ih (statement.pushTo template) (number + 1)
          exact ⟨fun hFits => hTaken hFits.2, fun hNot => hStopped fun hRest => hNot ⟨rfl, hRest⟩⟩
      | some fault => exact ⟨fun hFits => (nomatch hFits.1), fun _ => ⟨fault, number, rfl⟩⟩

/-- Lines of statements are split where they were joined, since each has something in it and none
breaks. -/
theorem splitLines_written {statements : List Statement} {lines : List String}
    (hWritten : List.Forall₂ (Statement.Written schema) statements lines) :
    Text.splitLines (joinLines lines).toList = lines.map String.toList := by
  apply Text.splitLines_joinLines
  induction hWritten with
  | nil => exact nofun
  | cons written rest ih =>
      have hSymbols := written.proper.unbroken
      have hSome := written.spaced.ne_nil hSymbols
      refine List.forall_mem_cons.2 ⟨⟨?_, written.spaced.isLineBreak_eq_false hSymbols⟩, ih⟩
      rintro rfl
      exact hSome rfl

/-- Lines of statements are a template if their integers without quotes have few enough digits. -/
theorem parse_written {statements : List Statement} {lines : List String}
    (hWritten : List.Forall₂ (Statement.Written schema) statements lines) :
    ((∀ statement ∈ statements, statement.LiteralsFit) →
      parse (joinLines lines) = .ok (statements.foldl Statement.pushTo empty)) ∧
    ((¬∀ statement ∈ statements, statement.LiteralsFit) →
      ∃ fault number, parse (joinLines lines) = .error ⟨.oversize fault, number⟩) := by
  rw [parse, splitLines_written hWritten]
  exact takeLines_written hWritten empty 1

/-! ### Lines read in a block -/

theorem lowered_word (keyword : Keyword) : Text.lowered keyword.word = keyword.word := by
  cases keyword <;> decide

/-- The events that a statement gives. -/
inductive Statement.Gives : Statement → Script.Event → Prop where
  | desc {keyword : Token} {text : String} : Gives (.desc text) (.desc keyword text)
  | action {name : Token} {args : List Arg} {semicolon : Bool} :
      Gives (.action name.value args semicolon) (.call ⟨name, args, none, semicolon⟩)
  | rule {name : Token} {args : List Arg} {target : Arg} {semicolon : Bool} :
      Gives (.rule name.value args target) (.call ⟨name, args, some target.text, semicolon⟩)

/-- The tokens of a statement are read as an event of its block. -/
theorem Statement.step {statement : Statement} {block : Script.Section} {opener : Token}
    {tokens rest : List Token} {number : Nat} (hProper : statement.Proper schema)
    (hTokens : tokens.map Token.symbol = statement.symbols)
    (hLines : ∀ token ∈ tokens, token.line = number)
    (hGoto : (nextToken rest).isKeyword "goto" = false) (hNext : (nextToken rest).kind ≠ .semi) :
    ∃ keyword operands event, tokens = keyword :: operands ∧ statement.Gives event ∧
      Script.step (.inside block opener) keyword (operands ++ rest) =
        .event event (.inside block opener) rest := by
  obtain ⟨keyword, operands, rfl, hKeyword, hOperands⟩ := List.map_eq_cons_iff.1 hTokens
  have hWord : keyword.isKeyword statement.keyword.word = true :=
    Script.Token.isKeyword_of_symbol hKeyword (lowered_word _)
  cases statement with
  | desc text =>
      obtain ⟨token, _, rfl, hToken, hNil⟩ := List.map_eq_cons_iff.1 hOperands
      obtain rfl := List.map_eq_nil_iff.1 hNil
      obtain ⟨hKind, rfl⟩ := Script.Token.kind_of_symbol hToken
      exact ⟨_, _, _, rfl, .desc, Script.step_desc hWord hKind hNext⟩
  | action type args semicolon =>
      obtain ⟨name, rfl, hReads⟩ := Script.readsCall_action hOperands hGoto hNext
      exact ⟨_, _, _, rfl, .action, hReads.step (Or.inl hWord)⟩
  | rule type args target =>
      obtain ⟨-, -, -, hTarget⟩ := hProper
      obtain ⟨name, rfl, hReads⟩ := Script.readsCall_rule hOperands
        (fun token hMem => hLines token (List.mem_cons_of_mem _ hMem)) hTarget hNext
      exact ⟨_, _, _, rfl, .rule, hReads.step (Or.inr hWord)⟩

/-- An event is taken as its statement says, if the slots can read the arguments. -/
theorem Statement.Gives.takes {statement : Statement} {event : Script.Event}
    (gives : statement.Gives event) (hProper : statement.Proper schema)
    (hFits : Param.argsFault? statement.args (statement.slots schema) = none) (quest : Quest)
    (current : OpenBlock) :
    Takes schema quest (some current) event quest (some (statement.addTo schema current)) := by
  cases gives with
  | desc => exact Takes.desc
  | action => exact Takes.action rfl hProper.2.1 hFits
  | rule => exact Takes.rule rfl hFits

/-- An event that is taken has arguments that the slots of its statement can read. -/
theorem Statement.Gives.fits {statement : Statement} {event : Script.Event}
    (gives : statement.Gives event) {quest quest' : Quest} {current current' : Option OpenBlock}
    (takes : Takes schema quest current event quest' current') :
    Param.argsFault? statement.args (statement.slots schema) = none := by
  cases gives with
  | desc => rfl
  | action =>
      cases takes with
      | action hNone hAllowed hFits => exact hFits
      | rule hSome hFits => cases hSome
  | rule =>
      cases takes with
      | action hNone hAllowed hFits => cases hNone
      | rule hSome hFits => exact hFits

/-- A call added to a block leaves the scope inside of this block. -/
theorem Statement.scope_addTo (statement : Statement) (quest : Quest) (current : OpenBlock) :
    (Stage.inside quest (statement.addTo schema current)).scope =
      (Stage.inside quest current).scope := by
  cases statement <;> rfl

/-- The tokens of a line lead to the block with what its statement says, where neither a goto clause
nor a semicolon comes behind them; and to nothing if the slots cannot read the arguments. -/
theorem Statement.Written.resumeText {statement : Statement} {line : String}
    (written : statement.Written schema line) (quest : Quest) (current : OpenBlock)
    {rest : List Char} (hGoto : Meets rest NoGoto) (hNext : Meets rest NoSemicolon)
    (position : Script.Position) :
    ∃ position', (Stage.inside quest current).resumeText schema position
        (line.toList ++ '\n' :: rest) =
      if Param.argsFault? statement.args (statement.slots schema) = none then
        (Stage.inside quest (statement.addTo schema current)).resumeText schema position' rest
      else none := by
  obtain ⟨tokens, place, hTokens, hLines, hRead⟩ :=
    written.spaced.tokensFrom written.proper.unbroken (delimited_lineEnd rest) position
  refine ⟨place.next '\n', ?_⟩
  rw [Stage.resumeText, Stage.resumeText, hRead, Script.tokensFrom_lineFeed]
  cases hRest : tokensFrom (place.next '\n') rest with
  | error fault => exact (ite_self _).symm
  | ok after =>
      obtain ⟨keyword, operands, event, rfl, gives, hStep⟩ :=
        @Statement.step _ statement current.block current.opener _ _ _ written.proper hTokens hLines
          (isKeyword_goto_eq_false (hGoto _ _ hRest)) (hNext _ _ hRest)
      by_cases hFits : Param.argsFault? statement.args (statement.slots schema) = none
      · rw [if_pos hFits]
        refine Stage.resume_event ?_ (gives.takes written.proper hFits quest current)
        rw [Statement.scope_addTo]
        exact hStep
      · rw [if_neg hFits]
        have hRefused : ∀ quest' current', ¬Takes schema quest (some current) event quest' current' :=
          fun _ _ takes => hFits (gives.fits takes)
        exact @Stage.resume_refused _ (.inside quest current) _ _ _ _ _ hStep hRefused

/-- A line begins with the keyword of its statement, which is neither a semicolon nor the word of a
goto clause. -/
theorem Statement.Written.meets {statement : Statement} {line : String}
    (written : statement.Written schema line) (rest : List Char) :
    Meets (line.toList ++ '\n' :: rest) NoGoto ∧
      Meets (line.toList ++ '\n' :: rest) NoSemicolon := by
  have hFirst : Meets (line.toList ++ '\n' :: rest)
      fun symbol => symbol = ⟨.ident, statement.keyword.word⟩ := by
    intro position tokens hAll
    obtain ⟨front, place, hFront, -, hRead⟩ :=
      written.spaced.tokensFrom written.proper.unbroken (delimited_lineEnd rest) position
    obtain ⟨keyword, operands, rfl, hKeyword, -⟩ := List.map_eq_cons_iff.1 hFront
    rw [hRead] at hAll
    cases hRest : tokensFrom place ('\n' :: rest) with
    | error fault =>
        rw [hRest] at hAll
        cases hAll
    | ok after =>
        rw [hRest] at hAll
        cases hAll
        exact hKeyword
  constructor
  · refine hFirst.mono ?_
    rintro symbol rfl
    cases statement <;> simp [NoGoto, Statement.keyword] <;> decide
  · refine hFirst.mono ?_
    rintro symbol rfl
    simp [NoSemicolon]

/-- The lines of statements lead to the block with all that the statements say, if the slots can read
all arguments, and else to nothing. -/
theorem leads_written {statements : List Statement} {lines : List String} (quest : Quest)
    (current : OpenBlock)
    (hWritten : List.Forall₂ (Statement.Written schema) statements lines) {rest : List Char}
    (hGoto : Meets rest NoGoto) (hNext : Meets rest NoSemicolon) :
    ((∀ statement ∈ statements,
        Param.argsFault? statement.args (statement.slots schema) = none) →
      Leads schema (.inside quest current) (textOf lines ++ rest)
        (.inside quest (statements.foldl (Statement.addTo schema) current)) rest) ∧
    ((¬∀ statement ∈ statements,
        Param.argsFault? statement.args (statement.slots schema) = none) →
      Fails schema (.inside quest current) (textOf lines ++ rest)) := by
  induction hWritten generalizing current with
  | nil => exact ⟨fun _ => Leads.refl, fun hNot => absurd (List.forall_mem_nil _) hNot⟩
  | @cons statement line statements lines written others ih =>
      rw [List.forall_mem_cons, textOf_cons, List.append_assoc, List.cons_append]
      obtain ⟨hLeads, hFails⟩ := ih (statement.addTo schema current)
      have hLine : ∀ position, ∃ position', (Stage.inside quest current).resumeText schema position
            (line.toList ++ '\n' :: (textOf lines ++ rest)) =
          if Param.argsFault? statement.args (statement.slots schema) = none then
            (Stage.inside quest (statement.addTo schema current)).resumeText schema position'
              (textOf lines ++ rest)
          else none := by
        cases others with
        | nil => exact written.resumeText quest current hGoto hNext
        | cons next others =>
            rw [textOf_cons, List.append_assoc, List.cons_append]
            obtain ⟨hNoGoto, hNoSemicolon⟩ := next.meets (textOf _ ++ rest)
            exact written.resumeText quest current hNoGoto hNoSemicolon
      constructor
      · rintro ⟨hFits, hRest⟩
        refine Leads.trans (fun position => ?_) (hLeads hRest)
        obtain ⟨position', hRead⟩ := hLine position
        exact ⟨position', hRead.trans (if_pos hFits)⟩
      · intro hNot position
        obtain ⟨position', hRead⟩ := hLine position
        rw [hRead]
        split
        · next hFits => exact hFails (fun hRest => hNot ⟨hFits, hRest⟩) position'
        · rfl

/-- Statements change neither the name of a block nor what block it is. -/
theorem foldl_addTo (schema : Schema) (statements : List Statement) (current : OpenBlock) :
    (statements.foldl (Statement.addTo schema) current).state.name = current.state.name ∧
      (statements.foldl (Statement.addTo schema) current).block = current.block := by
  induction statements generalizing current with
  | nil => exact ⟨rfl, rfl⟩
  | cons statement statements ih =>
      obtain ⟨hName, hBlock⟩ := ih (statement.addTo schema current)
      rw [List.foldl_cons, hName, hBlock]
      cases statement <;> exact ⟨rfl, rfl⟩

/-- A block alone: its header, its lines and its brace, with nothing behind it. -/
theorem toList_printBlock (header : String) (lines : List String) :
    (printBlock header lines).toList =
      (header ++ " \x7b").toList ++ '\n' :: (textOf lines ++ ("\x7d".toList ++ [])) := by
  refine List.append_cancel_right ((textOf_printBlock header lines []).trans ?_)
  simp only [List.append_assoc, List.cons_append, List.nil_append]

/-- A block of statements that is the whole script is read as a quest of one state, if the slots can
read all arguments, and else not at all. -/
theorem parse_pasted {statements : List Statement} {lines : List String} {name : String}
    (hName : Quotable name) (hWritten : List.Forall₂ (Statement.Written schema) statements lines)
    (id : Number) :
    let pasted := Quest.parse schema id (printBlock ("State " ++ inQuotes name) lines)
    ((∀ statement ∈ statements,
        Param.argsFault? statement.args (statement.slots schema) = none) →
      ∃ warnings opener, pasted =
        .ok ({ Quest.blank id with
          states :=
            [(statements.foldl (Statement.addTo schema) (.opened (.state name) opener)).state] },
          warnings)) ∧
    ∀ result, pasted = .ok result → ∀ statement ∈ statements,
      Param.argsFault? statement.args (statement.slots schema) = none := by
  intro pasted
  obtain ⟨hNext, hGoto⟩ := meets_brace []
  have hInto : LeadsInto schema (Quest.blank id)
      (("State " ++ inQuotes name ++ " \x7b").toList ++ '\n' ::
        (textOf lines ++ ("\x7d".toList ++ []))) (.state name)
      (textOf lines ++ ("\x7d".toList ++ [])) := LeadsInto.state hName _
  rw [← toList_printBlock] at hInto
  constructor
  · intro hFits
    obtain ⟨opener, position, hOpened⟩ := hInto .start
    let start : OpenBlock := .opened (.state name) opener
    let filled := statements.foldl (Statement.addTo schema) start
    have hBlock : filled.block = .state name := (foldl_addTo schema statements start).2
    have hFresh : ∀ other, filled.block = .state other → other ∉ (Quest.blank id).stateNames :=
      fun _ _ => List.not_mem_nil
    obtain ⟨hLeads, -⟩ := leads_written (Quest.blank id) start hWritten hGoto hNext
    obtain ⟨final, hRead⟩ := ((hLeads hFits).trans (Leads.brace hFresh [])) position
    have hQuest : filled.closeInto (Quest.blank id) =
        { Quest.blank id with states := [filled.state] } := by
      rw [OpenBlock.closeInto, hBlock]
      rfl
    have hNothing : ∀ c ∈ ([] : List Char), Script.isGapChar c = true := List.forall_mem_nil _
    have hEnd := Stage.resumeText_gaps schema (filled.closeInto (Quest.blank id)) final hNothing
    rw [hRead, hEnd, hQuest] at hOpened
    obtain ⟨warnings, hParse⟩ := Quest.parse_iff_resumeText.2 hOpened
    exact ⟨warnings, opener, hParse⟩
  · rintro ⟨quest, warnings⟩ hParse
    by_contra hNot
    have hNone := hInto.fails (fun opener =>
      (leads_written (Quest.blank id) (.opened (.state name) opener) hWritten hGoto hNext).2 hNot)
    have hSome := Quest.parse_iff_resumeText.1 ⟨warnings, hParse⟩
    rw [hNone .start] at hSome
    cases hSome

/-! ### What a template and a block write -/

/-- A template and a block of a script say the same: applied to a state, the template is written as
the block is. -/
structure Alike (schema : Schema) (template : Template) (state : State) : Prop where
  description : template.description = state.description
  actions : template.actions.map (Action.print schema) = state.actions.map (Action.print schema)
  rules : template.rules.map (Rule.print schema) = state.rules.map (Rule.print schema)

/-- A statement leads to a template that is like the block that it leads to in a script: the calls
were typed at different times, but print the same. -/
theorem Alike.push {template : Template} {current : OpenBlock} {statement : Statement}
    (alike : Alike schema template current.state) (hProper : statement.Proper schema) :
    Alike schema (statement.pushTo template) (statement.addTo schema current).state := by
  cases statement with
  | desc text => exact ⟨rfl, alike.actions, alike.rules⟩
  | action type args semicolon =>
      obtain ⟨-, -, hArgs⟩ := hProper
      refine ⟨alike.description, ?_, alike.rules⟩
      simp only [Statement.pushTo, Statement.addTo, OpenBlock.addAction, List.map_append,
        List.map_singleton, alike.actions, Action.refresh, Action.print, printCall,
        Param.printList_ofArgs hArgs]
  | rule type args target =>
      obtain ⟨-, hArgs, -⟩ := hProper
      refine ⟨alike.description, alike.actions, ?_⟩
      simp only [Statement.pushTo, Statement.addTo, OpenBlock.addRule, List.map_append,
        List.map_singleton, alike.rules, Rule.refresh, Rule.print, printCall,
        Param.printList_ofArgs hArgs]

/-- A template and a block that took the same calls stay alike. The induction is on the list of
calls. -/
theorem Alike.foldl {template : Template} {current : OpenBlock} {statements : List Statement}
    (alike : Alike schema template current.state)
    (hProper : ∀ statement ∈ statements, statement.Proper schema) :
    Alike schema (statements.foldl Statement.pushTo template)
      (statements.foldl (Statement.addTo schema) current).state := by
  induction statements generalizing template current with
  | nil => exact alike
  | cons statement statements ih =>
      obtain ⟨hFirst, hRest⟩ := List.forall_mem_cons.1 hProper
      exact ih (alike.push hFirst) hRest

/-- A template that is like a state is written as the state is, once it is applied to a state of that
name without content. -/
theorem Alike.print {template : Template} {state : State} (alike : Alike schema template state)
    (pad : String) :
    ((State.named state.name).applyTemplate schema template).print schema pad =
      state.print schema pad := by
  have hDescription : (if template.description.isEmpty then (State.named state.name).description
      else template.description) = state.description := by
    rw [alike.description]
    split
    · next hEmpty => exact (String.isEmpty_iff.1 hEmpty).symm
    · rfl
  have hActions := congrArg (List.map (pad ++ ·)) alike.actions
  have hRules := congrArg (List.map (pad ++ ·)) alike.rules
  rw [List.map_map, List.map_map] at hActions hRules
  have hBody : ((State.named state.name).applyTemplate schema template).bodyLines schema pad =
      state.bodyLines schema pad := by
    simp only [State.bodyLines, State.descLines, State.applyTemplate, State.refresh, List.map_map,
      hDescription]
    exact congrArg₂ (fun actions rules => _ ++ actions ++ rules) hActions hRules
  rw [State.print, State.print, hBody]
  rfl

/-! ### What a template and a block can write -/

/-- The calls of a template can all be written. -/
def Writable (schema : Schema) (template : Template) : Prop :=
  (∀ action ∈ template.actions, action.fault? schema = none) ∧
    ∀ rule ∈ template.rules, rule.fault? schema = none

/-- The call of a statement that a template was read with can be written just if the slots can read
its arguments. -/
theorem writable_pushTo {statement : Statement} (hProper : statement.Proper schema)
    (hFits : statement.LiteralsFit) (template : Template) :
    (statement.pushTo template).Writable schema ↔
      template.Writable schema ∧
        Param.argsFault? statement.args (statement.slots schema) = none := by
  have hSlots := Param.listFault?_sniff_iff hProper.args
    (hProper.argsFault?_eq_none_iff.2 hFits) (statement.slots schema)
  cases statement with
  | desc text => exact (and_iff_left rfl).symm
  | action type args semicolon =>
      rw [Writable, Statement.pushTo, List.forall_mem_append, List.forall_mem_singleton,
        and_right_comm, ← hSlots]
      rfl
  | rule type args target =>
      rw [Writable, Statement.pushTo, List.forall_mem_append, List.forall_mem_singleton,
        ← and_assoc, ← hSlots]
      rfl

/-- Calls that are pushed onto a template leave it one that can be written just if their slots can
read the arguments. -/
theorem writable_foldl {statements : List Statement}
    (hProper : ∀ statement ∈ statements, statement.Proper schema)
    (hFits : ∀ statement ∈ statements, statement.LiteralsFit) (template : Template) :
    (statements.foldl Statement.pushTo template).Writable schema ↔
      template.Writable schema ∧ ∀ statement ∈ statements,
        Param.argsFault? statement.args (statement.slots schema) = none := by
  induction statements generalizing template with
  | nil => exact (and_iff_left (List.forall_mem_nil _)).symm
  | cons statement statements ih =>
      obtain ⟨hFirst, hRest⟩ := List.forall_mem_cons.1 hProper
      obtain ⟨hFirstFits, hRestFits⟩ := List.forall_mem_cons.1 hFits
      rw [List.foldl_cons, ih hRest hRestFits, writable_pushTo hFirst hFirstFits,
        List.forall_mem_cons, and_assoc]

/-- A block from a template can be written exactly when the template can. The calls it had are
replaced. -/
theorem fault?_applyTemplate_eq_none_iff {template : Template} {state : State} :
    (state.applyTemplate schema template).fault? schema = none ↔ template.Writable schema := by
  rw [State.applyTemplate, State.fault?_eq_of_uncached (State.uncached_refresh _),
    State.fault?_eq_none_iff]
  rfl

/-- A template is applied to a state just if its calls can be written. -/
theorem run_applyTemplate_eq_ok_iff {template : Template} {state result left : State} :
    (InPlace.applyTemplate schema template).run state = .ok result left ↔
      template.Writable schema ∧ result = state.applyTemplate schema template ∧
        left = state.applyTemplate schema template := by
  rw [(InPlace.applyTemplate_ends schema template state).eq_ok_iff, Option.map_eq_none_iff,
    fault?_applyTemplate_eq_none_iff, Except.ok.injEq, Prod.mk.injEq, eq_comm, @eq_comm _ _ left]

/-! ### Both ways -/

/-- Using a template is pasting its text, up to the limit on digits. Lines of statements are read as a
template just if their integers without quotes have few enough digits, whatever the slots of these
are. A template that was read can be applied to a state without content, of any name that can stand
between quotes, just if the lines between the braces of a state of that name are read as a script; and
then both states are written, and as the same text. -/
theorem print_applied_eq_print_pasted (schema : Schema) (id : Number) (pad name : String)
    (hName : Quotable name) (statements : List Statement) (lines : List String)
    (hWritten : List.Forall₂ (Statement.Written schema) statements lines) :
    let pasted := Quest.parse schema id (printBlock ("State " ++ inQuotes name) lines)
    ((∃ template, parse (joinLines lines) = .ok template) ↔
        ∀ statement ∈ statements, statement.LiteralsFit) ∧
    (∀ fault, parse (joinLines lines) = .error fault → fault.cause.oversize?.isSome) ∧
    ∀ template, parse (joinLines lines) = .ok template →
      let applied := (InPlace.applyTemplate schema template).run (State.named name)
      ((∃ state left, applied = .ok state left) ↔ ∃ result, pasted = .ok result) ∧
      ∀ state left quest warnings, applied = .ok state left → pasted = .ok (quest, warnings) →
        ∃ other text, quest = { Quest.blank id with states := [other] } ∧
          state.write schema pad = .ok text ∧ other.write schema pad = .ok text := by
  intro pasted
  obtain ⟨hProper, -⟩ : (∀ statement ∈ statements, statement.Proper schema) ∧ _ :=
    (List.forall₂_and_left statements lines).1
      (hWritten.imp fun _ _ written => ⟨written.proper, written⟩)
  obtain ⟨hTaken, hStopped⟩ := parse_written hWritten
  obtain ⟨hPasted, hReads⟩ := parse_pasted hName hWritten id
  by_cases hFits : ∀ statement ∈ statements, statement.LiteralsFit
  · have hRead := hTaken hFits
    refine ⟨iff_of_true ⟨_, hRead⟩ hFits, ?_, ?_⟩
    · intro fault hError
      rw [hRead] at hError
      cases hError
    · intro template hTemplate applied
      obtain rfl := Except.ok.inj (hRead.symm.trans hTemplate)
      have hWritable := (writable_foldl hProper hFits empty).trans (and_iff_right ⟨nofun, nofun⟩)
      constructor
      · constructor
        · rintro ⟨state, left, hRun⟩
          obtain ⟨warnings, opener, hResult⟩ :=
            hPasted (hWritable.1 (run_applyTemplate_eq_ok_iff.1 hRun).1)
          exact ⟨_, hResult⟩
        · rintro ⟨result, hResult⟩
          exact ⟨_, _, run_applyTemplate_eq_ok_iff.2
            ⟨hWritable.2 (hReads result hResult), rfl, rfl⟩⟩
      · intro state left quest warnings hRun hResult
        obtain ⟨hCan, rfl, -⟩ := run_applyTemplate_eq_ok_iff.1 hRun
        obtain ⟨_, opener, hOther⟩ := hPasted (hWritable.1 hCan)
        cases hOther.symm.trans hResult
        let start : OpenBlock := .opened (.state name) opener
        obtain ⟨hStateName, -⟩ := foldl_addTo schema statements start
        have hStart : Alike schema empty start.state := ⟨rfl, rfl, rfl⟩
        have hPrint := (hStart.foldl hProper).print pad
        rw [hStateName] at hPrint
        have hOnly : Quest.Writable schema _ :=
          Quest.fault?_eq_none_iff.1 (Quest.fault?_of_parse hResult)
        have hFault := State.fault?_eq_none_iff.2 ⟨hOnly.actions _ (List.mem_singleton_self _),
          hOnly.rules _ (List.mem_singleton_self _)⟩
        exact ⟨_, _, rfl,
          Integer.guarded_eq_ok.2 ⟨fault?_applyTemplate_eq_none_iff.2 hCan, hPrint⟩,
          Integer.guarded_eq_ok.2 ⟨hFault, rfl⟩⟩
  · obtain ⟨fault, number, hRead⟩ := hStopped hFits
    refine ⟨iff_of_false ?_ hFits, ?_, ?_⟩
    · rintro ⟨template, hTemplate⟩
      cases hRead.symm.trans hTemplate
    · intro fault' hError
      cases hRead.symm.trans hError
      rfl
    · intro template hTemplate
      cases hRead.symm.trans hTemplate

/-- A number in a slot for text, and a word in a slot for an integer. The template keeps both as they
are written, the state in the script does not, but they are written the same. With the first number
that has too many digits there is no template. -/
theorem print_applied_eq_print_pasted_sample :
    let slots : List Schema.Slot := [⟨"text", .string⟩, ⟨"count", .integer⟩]
    let schema : Schema :=
      ⟨Table.ofList [("Say", ⟨"Say", "Say(\"text\", count)", "", slots⟩)], Table.empty⟩
    let lines := ["  desc  \"Hi\"", "action Say(5, x, \"y\");", "rule Done() goto \"B 1\""]
    let template : Template :=
      ⟨"Hi", [⟨"Say", [.int 5, .text "x" true, .quoted "y"], "Say(5, x, \"y\");"⟩],
        [⟨"Done", [], "B 1", "Done() goto \"B 1\""⟩]⟩
    let state : State :=
      ⟨"A", "Hi", [⟨"Say", [.quoted "5", .int 0, .quoted "y"], "Say(\"5\", 0, \"y\")"⟩],
        [⟨"Done", [], "B 1", "Done() goto \"B 1\""⟩]⟩
    let long : Statement :=
      .action "Say" [.number (toString (tenPow Integer.maxDigits : Int))] true
    (parse (joinLines lines) = .ok template ∧
      (∃ warnings, Quest.parse schema 1 (printBlock "State \"A\"" lines) =
        .ok ({ Quest.blank 1 with states := [state] }, warnings)) ∧
      ∃ applied left text,
        (InPlace.applyTemplate schema template).run (State.named "A") = .ok applied left ∧
          applied.write schema " " = .ok text ∧ state.write schema " " = .ok text) ∧
      ¬∃ template, parse (joinLines [long.text]) = .ok template := by
  intro slots schema lines template state long
  have hTemplate : parse (joinLines lines) = .ok template := by decide +kernel
  have hQuest : Quest.parse schema 1 (printBlock "State \"A\"" lines) =
      .ok ({ Quest.blank 1 with states := [state] },
        [.unknownRule 4 "Done", .danglingRule "A" "Done" "B 1"]) := by decide +kernel
  have hHi : InLine "Hi" := by decide
  have hFive : (Arg.number "5").Proper := ⟨by decide +kernel, fun _ => ⟨5, by decide⟩⟩
  have hWord : IsIdentifier "x" := by decide +kernel
  have hTarget : InLine "B 1" := by decide
  have hQuoted : InLine "y" := by decide
  have hDesc : (Statement.desc "Hi").Written schema "  desc  \"Hi\"" := by
    have hNothing : Spaced [] [] := .nil nofun
    have hText : Spaced [⟨.string, "Hi"⟩] _ := hNothing.touching rfl
    have hLine : Spaced (Statement.desc "Hi").symbols _ :=
      (hText.space.space.touching (by decide +kernel)).space.space
    exact ⟨hHi, hLine⟩
  have hSay : (Statement.action "Say" [.number "5", .word "x", .quoted "y"] true).Written schema
      "action Say(5, x, \"y\");" :=
    Statement.Proper.written ⟨by decide +kernel, by decide +kernel, List.forall_mem_cons.2 ⟨hFive,
      List.forall_mem_cons.2 ⟨hWord, List.forall_mem_singleton.2 hQuoted⟩⟩⟩
  have hDone : (Statement.rule "Done" [] (.quoted "B 1")).Written schema
      "rule Done() goto \"B 1\"" :=
    Statement.Proper.written ⟨by decide +kernel, nofun, hTarget, rfl⟩
  have hLong : long.Written schema long.text :=
    Statement.Proper.written ⟨by decide +kernel, by decide +kernel,
      List.forall_mem_singleton.2 ⟨Integer.admits_toString _, fun _ => ⟨_, rfl⟩⟩⟩
  have hName : "State " ++ inQuotes "A" = "State \"A\"" := by decide
  obtain ⟨-, -, hBoth⟩ :=
    print_applied_eq_print_pasted schema 1 " " "A" (by decide) _ lines
      (.cons hDesc (.cons hSay (.cons hDone .nil)))
  obtain ⟨hIff, hSame⟩ := hBoth template hTemplate
  rw [hName] at hIff hSame
  obtain ⟨applied, left, hApplied⟩ := hIff.2 ⟨_, hQuest⟩
  obtain ⟨other, text, hOther, hFirst, hSecond⟩ := hSame applied left _ _ hApplied hQuest
  have hOnly : other = state := by
    have hStates := congrArg Quest.states hOther
    exact (List.singleton_inj.1 hStates).symm
  rw [hOnly] at hSecond
  refine ⟨⟨hTemplate, ⟨_, hQuest⟩, applied, left, text, hApplied, hFirst, hSecond⟩, ?_⟩
  obtain ⟨hLongIff, -⟩ := print_applied_eq_print_pasted schema 1 " " "A" (by decide) [long]
    [long.text] (.cons hLong .nil)
  rw [hLongIff]
  intro hFits
  have hFew := hFits long (List.mem_singleton_self _) _ (List.mem_singleton_self _)
  rw [Integer.fits_tenPow_maxDigits] at hFew
  cases hFew

end Template

end QuestScript

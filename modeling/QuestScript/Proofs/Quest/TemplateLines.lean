import QuestScript.Proofs.Quest.Pasting
import QuestScript.Proofs.Script.Columns
import QuestScript.Proofs.Text.Lines
/-!
Lines of templates that begin with no keyword. Such a line is passed over wherever it is put, and all
that changes is the number of the line that a fault behind it is found in.

Two readers look at the first word of a line: one takes the letters and underscores at its start for
the keyword, the other takes the whole identifier off the line. A word that goes on behind a keyword
with a digit, or a letter beyond ASCII, is a keyword to the one and one word to the other, so the
line is read as if the keyword stood there alone.
-/

namespace QuestScript.Template

open QuestScript.Text
open Script (Aligned Agree Call Kind Symbol Token isIdentChar isIdentStart isWord nextToken tokensFrom)

/-! ### First words -/

/-- The first word of a line: the identifier that it begins with, or nothing. -/
def firstWord (line : List Char) : List Char := line.takeWhile isIdentChar

/-- Whether a word is no keyword, in letters of either case. -/
def IsUnknown (word : List Char) : Prop :=
  ∀ keyword : Keyword, word.map Char.toLower ≠ keyword.word.toList

/-- Whether a word begins with a keyword and goes on behind it with a character that is in no
keyword. -/
def Continues (keyword : Keyword) (word : List Char) : Prop :=
  ∃ front c back, word = front ++ c :: back ∧ front.map Char.toLower = keyword.word.toList ∧
    isKeywordChar c = false

theorem isAlpha_of_toLower {c : Char} (hLower : c.toLower.isAlpha = true) : c.isAlpha = true := by
  unfold Char.toLower at hLower
  split at hLower
  · next hUpper =>
      have hIsUpper : c.isUpper = true :=
        decide_eq_true hUpper
      exact Bool.or_eq_true_iff.2 (.inl hIsUpper)
  · exact hLower

/-- Letters of either case that make up a keyword. -/
theorem all_isKeywordChar {keyword : Keyword} {word : List Char}
    (hWord : word.map Char.toLower = keyword.word.toList) : word.all isKeywordChar = true := by
  have hLetters : (word.map Char.toLower).all Char.isAlpha = true := by
    rw [hWord]
    cases keyword <;> decide
  rw [List.all_map] at hLetters
  rw [List.all_eq_true] at hLetters ⊢
  intro c hMem
  rw [isKeywordChar, isAlpha_of_toLower (hLetters c hMem), Bool.true_or]

/-- A line whose letters up to the first other character spell a keyword is taken for that
keyword, in whatever case they are. -/
theorem keyword?_of_append {keyword : Keyword} {word rest : List Char}
    (hWord : word.map Char.toLower = keyword.word.toList)
    (hStop : rest.head?.all (fun c => !isKeywordChar c) = true) :
    keyword? (word ++ rest) = some keyword := by
  have hTake := (Script.takeWhile_append_of_endsBefore rest (all_isKeywordChar hWord) hStop).1
  simp only [keyword?, hTake, hWord]
  cases keyword <;> decide

/-- The keyword of a line is spelled by its letters up to the first other character. -/
theorem keyword?_eq_some {keyword : Keyword} {line : List Char}
    (hKeyword : keyword? line = some keyword) :
    (line.takeWhile isKeywordChar).map Char.toLower = keyword.word.toList := by
  have hFound := List.find?_some hKeyword
  exact (of_decide_eq_true hFound).symm

/-- The letters at the start of a line are part of its first word. -/
theorem firstWord_eq (line : List Char) :
    firstWord line =
      line.takeWhile isKeywordChar ++ (line.dropWhile isKeywordChar).takeWhile isIdentChar := by
  have hLetters : ∀ c ∈ line.takeWhile isKeywordChar, isIdentChar c = true := fun c hMem =>
    isIdentChar_of_isKeywordChar (List.all_eq_true.1 List.all_takeWhile c hMem)
  conv_lhs => rw [firstWord, ← List.takeWhile_append_dropWhile (p := isKeywordChar) (l := line)]
  exact List.takeWhile_append_of_pos hLetters

/-- A first word that is no keyword counts as one just if it begins with it. -/
theorem keyword?_eq_some_iff {line : List Char} (hUnknown : IsUnknown (firstWord line))
    (keyword : Keyword) : keyword? line = some keyword ↔ Continues keyword (firstWord line) := by
  constructor
  · intro hKeyword
    have hWord := keyword?_eq_some hKeyword
    have hStop := Script.head?_dropWhile_all isKeywordChar line
    have hFirst := firstWord_eq line
    cases hRest : line.dropWhile isKeywordChar with
    | nil =>
        rw [hRest, List.takeWhile_nil, List.append_nil] at hFirst
        exact absurd (hFirst ▸ hWord) (hUnknown keyword)
    | cons c rest =>
        rw [hRest] at hFirst hStop
        cases hChar : isIdentChar c with
        | false =>
            rw [List.takeWhile_cons_of_neg (by simp [hChar]), List.append_nil] at hFirst
            exact absurd (hFirst ▸ hWord) (hUnknown keyword)
        | true =>
            rw [List.takeWhile_cons_of_pos hChar] at hFirst
            exact ⟨_, c, _, hFirst, hWord, by simpa using hStop⟩
  · rintro ⟨front, c, back, hFirst, hWord, hStop⟩
    have hLine : line = front ++ c :: (back ++ line.dropWhile isIdentChar) := by
      conv_lhs => rw [← List.takeWhile_append_dropWhile (p := isIdentChar) (l := line)]
      rw [← firstWord, hFirst, List.append_assoc, List.cons_append]
    rw [hLine]
    exact keyword?_of_append hWord (by simp [hStop])

/-- A first word that begins with a keyword is an identifier. -/
theorem Continues.isWord {keyword : Keyword} {line : List Char}
    (hContinues : Continues keyword (firstWord line)) :
    Script.isWord isIdentStart isIdentChar (firstWord line) = true := by
  obtain ⟨front, c, back, hFirst, hWord, -⟩ := hContinues
  have hAll : (firstWord line).all isIdentChar = true := List.all_takeWhile
  cases front with
  | nil => cases keyword <;> exact absurd hWord (by decide)
  | cons d front =>
      have hStart : isIdentStart d = true :=
        Script.isIdentStart_of_isPlainStart (List.all_eq_true.1 (all_isKeywordChar hWord) d (by simp))
      rw [hFirst, List.cons_append, List.all_cons, Bool.and_eq_true] at hAll
      rw [hFirst, List.cons_append, Script.isWord, hStart, hAll.2, Bool.and_self]

/-- A word that goes on behind a keyword is longer than it. -/
theorem Continues.length_lt {keyword : Keyword} {word : List Char}
    (hContinues : Continues keyword word) : keyword.word.toList.length < word.length := by
  obtain ⟨front, c, back, rfl, hWord, -⟩ := hContinues
  rw [← hWord, List.length_map, List.length_append]
  exact Nat.lt_add_of_pos_right (Nat.succ_pos _)

/-! ### Lines with one keyword and one rest -/

/-- The tokens behind a first word are those of the rest of the line, in the columns behind the
word. -/
theorem tokensAfterKeyword_word {word rest : List Char}
    (hWord : isWord isIdentStart isIdentChar word = true)
    (hEnds : Kind.ident.endsBefore rest = true) :
    tokensAfterKeyword (word ++ rest) =
      (tokensFrom ⟨1, 1 + word.length⟩ rest).mapError fun fault => .script fault.cause := by
  have hForm : (⟨.ident, String.ofList word⟩ : Symbol).WellFormed :=
    ⟨by simpa [Kind.admits] using hWord, by simp⟩
  have hSource : (⟨.ident, String.ofList word⟩ : Symbol).source = word := String.toList_ofList
  have hAdmits : Kind.ident.admits word = true := hWord
  have hLine : ∀ c ∈ word, c ≠ '\n' := fun c hMem hEq =>
    Kind.lineFeed_notMem_of_admits hAdmits (hEq ▸ hMem)
  have hBehind : Script.Position.start.advance word = ⟨1, 1 + word.length⟩ :=
    Script.Position.advance_of_no_lineFeed _ hLine
  rw [tokensAfterKeyword, ← hSource, Script.tokensFrom_symbol Script.Position.start hForm hEnds,
    hSource, hBehind]
  cases tokensFrom ⟨1, 1 + word.length⟩ rest <;> rfl

/-- How a cause is worded in a line: the message, and that it is told without the line if an integer
is not converted. -/
def Cause.wording (cause : Cause) : Option Integer.Oversize × String :=
  (cause.oversize?, cause.message)

/-- Two faults of one wording are reported alike on one line. -/
theorem Fault.message_eq {cause cause' : Cause} (hWording : cause.wording = cause'.wording)
    (line : Nat) : Fault.message ⟨cause, line⟩ = Fault.message ⟨cause', line⟩ := by
  obtain ⟨hOversize, hMessage⟩ := Prod.mk.inj hWording
  simp only [Fault.message, hOversize, hMessage]

/-- Two results of reading a call that agree: the same call but for a column, or causes of one
wording. -/
inductive CallsAlike : Except Cause Call → Except Cause Call → Prop where
  | ok (call : Call) (column : Nat) : CallsAlike (.ok call) (.ok (call.movedTo column))
  | error {cause cause' : Cause} (hWording : cause.wording = cause'.wording) :
      CallsAlike (.error cause) (.error cause')

/-- Calls in other columns are read alike. -/
theorem readCall_alike (keyword : Keyword) {tokens tokens' : List Token}
    (aligned : Aligned tokens tokens') :
    CallsAlike (readCall keyword tokens) (readCall keyword tokens') := by
  cases aligned with
  | nil => exact .error rfl
  | @cons name rest rest' column _ aligned =>
      cases aligned with
      | nil => exact .error rfl
      | @cons paren more more' parenColumn _ aligned =>
          refine Script.ite_related (fun _ => ?_) fun _ => .error rfl
          have hCall := Script.readCall_alike name column aligned
          generalize Script.readCall name more = reading at hCall ⊢
          generalize Script.readCall (name.movedTo column) more' = reading' at hCall ⊢
          rcases hCall with @⟨⟨call, after⟩, ⟨_, after'⟩, rfl, aligned⟩ | alike
          · obtain ⟨nextColumn, hNext⟩ := aligned.nextToken
            dsimp only
            rw [hNext]
            exact Script.ite_related (fun _ => .ok call column) fun _ => .error rfl
          · exact .error (congrArg (Prod.mk none) alike.reason)

/-- Calls that are read alike have the same arguments, so those of both can be read or of neither. -/
theorem readStatement_alike (keyword : Keyword) {tokens tokens' : List Token}
    (aligned : Aligned tokens tokens') :
    CallsAlike (readStatement keyword tokens) (readStatement keyword tokens') := by
  have hCall := readCall_alike keyword aligned
  rw [readStatement, readStatement]
  generalize readCall keyword tokens = read at hCall ⊢
  generalize readCall keyword tokens' = read' at hCall ⊢
  cases hCall with
  | error hWording => exact .error hWording
  | ok call column =>
      have hArgs : (call.movedTo column).args = call.args := rfl
      dsimp only [bind, Except.bind]
      rw [hArgs]
      cases Param.argsFault? call.args [] with
      | none => exact .ok call column
      | some fault => exact .error rfl

/-- Statements in other columns are taken alike. -/
theorem statement_alike (template : Template) (keyword : Keyword) {tokens tokens' : List Token}
    (aligned : Aligned tokens tokens') :
    (template.statement keyword tokens).mapError Cause.wording =
      (template.statement keyword tokens').mapError Cause.wording := by
  have hCall := readStatement_alike keyword aligned
  cases keyword with
  | desc =>
      obtain ⟨column, hNext⟩ := aligned.nextToken
      rw [statement, statement, hNext]
      rfl
  | action =>
      rw [statement, statement]
      generalize readStatement .action tokens = read at hCall ⊢
      generalize readStatement .action tokens' = read' at hCall ⊢
      cases hCall with
      | ok call column => rfl
      | error hWording => exact congrArg Except.error hWording
  | rule =>
      rw [statement, statement]
      generalize readStatement .rule tokens = read at hCall ⊢
      generalize readStatement .rule tokens' = read' at hCall ⊢
      cases hCall with
      | ok call column => rfl
      | error hWording => exact congrArg Except.error hWording

/-- A line that begins with a word is neither empty nor a comment. -/
theorem isSkipped_identifier {word : List Char} (hWord : isWord isIdentStart isIdentChar word = true)
    (rest : List Char) : isSkipped (word ++ rest) = false := by
  obtain ⟨c, more, rfl, hStart, -⟩ := Script.isWord_cases hWord
  have hSlash : c ≠ '/' := Script.ne_of_isIdentStart hStart (by decide)
  simp [isSkipped, hSlash]

/-- A line is taken as the statement of its keyword, with what stands behind its first word. -/
theorem takeLine_word (template : Template) {keyword : Keyword} {word rest : List Char}
    (hWord : isWord isIdentStart isIdentChar word = true)
    (hEnds : Kind.ident.endsBefore rest = true)
    (hKeyword : keyword? (word ++ rest) = some keyword) :
    template.takeLine (word ++ rest) =
      match tokensFrom ⟨1, 1 + word.length⟩ rest with
      | .error fault => .error (.script fault.cause)
      | .ok tokens => template.statement keyword tokens := by
  rw [takeLine, isSkipped_identifier hWord, hKeyword, tokensAfterKeyword_word hWord hEnds]
  cases tokensFrom ⟨1, 1 + word.length⟩ rest <;> rfl

/-- Lines with the same keyword and the same text behind their first words are taken alike. -/
theorem takeLine_alike (template : Template) {keyword : Keyword} {word word' rest : List Char}
    (hWord : isWord isIdentStart isIdentChar word = true)
    (hWord' : isWord isIdentStart isIdentChar word' = true) (hLength : word.length ≤ word'.length)
    (hEnds : Kind.ident.endsBefore rest = true) (hLine : ∀ c ∈ rest, c ≠ '\n')
    (hKeyword : keyword? (word ++ rest) = some keyword)
    (hKeyword' : keyword? (word' ++ rest) = some keyword) :
    (template.takeLine (word ++ rest)).mapError Cause.wording =
      (template.takeLine (word' ++ rest)).mapError Cause.wording := by
  have hTokens := Script.tokensFrom_alike hLine 1 (Nat.add_le_add_left hLength 1)
  rw [takeLine_word template hWord hEnds hKeyword, takeLine_word template hWord' hEnds hKeyword']
  generalize tokensFrom ⟨1, 1 + word.length⟩ rest = read at hTokens ⊢
  generalize tokensFrom ⟨1, 1 + word'.length⟩ rest = read' at hTokens ⊢
  rcases hTokens with aligned | alike
  · exact template.statement_alike keyword aligned
  · exact congrArg (fun message => Except.error (none, message)) alike.reason

/-! ### Lines taken in turn -/

/-- Lines are taken in two stretches, and the first fault ends both. -/
theorem takeLines_append (template : Template) (number : Nat) (before after : List (List Char)) :
    template.takeLines number (before ++ after) =
      match template.takeLines number before with
      | .error fault => .error fault
      | .ok template => template.takeLines (number + before.length) after := by
  induction before generalizing template number with
  | nil => rfl
  | cons line before ih =>
      rw [List.cons_append, takeLines, takeLines, List.length_cons, Nat.add_comm before.length,
        ← Nat.add_assoc]
      cases template.takeLine (trim line) with
      | error cause => rfl
      | ok next => exact ih next (number + 1)

/-- A fault is found in one of the lines. -/
theorem takeLines_fault {template : Template} {number : Nat} {lines : List (List Char)}
    {fault : Fault} (hFault : template.takeLines number lines = .error fault) :
    number ≤ fault.line ∧ fault.line < number + lines.length := by
  induction lines generalizing template number with
  | nil => cases hFault
  | cons line lines ih =>
      rw [takeLines] at hFault
      rw [List.length_cons]
      cases hLine : template.takeLine (trim line) with
      | error cause =>
          rw [hLine] at hFault
          cases hFault
          simp
      | ok next =>
          rw [hLine] at hFault
          have hBounds := ih hFault
          omega

/-- The fault of a template with a line more, which is put in at a place. -/
def Fault.behind (place : Nat) (fault : Fault) : Fault :=
  if fault.line ≤ place then fault else ⟨fault.cause, fault.line + 1⟩

/-- Behind an inserted line all faults are one line further down. Nothing else about them changes.
-/
theorem takeLines_behind (template : Template) {place number : Nat} (hPlace : place < number)
    (lines : List (List Char)) :
    template.takeLines (number + 1) lines =
      (template.takeLines number lines).mapError (Fault.behind place) := by
  induction lines generalizing template number with
  | nil => rfl
  | cons line lines ih =>
      rw [takeLines, takeLines]
      cases template.takeLine (trim line) with
      | error cause =>
          have hBehind : ¬number ≤ place := by omega
          simp only [Except.mapError, Fault.behind, if_neg hBehind]
      | ok next => exact ih next (by omega)

/-! ### Lines that are put in -/

/-- A line that leaves every template as it is moves no more than the faults behind it. -/
theorem parse_passedOver {place : Nat} {line : List Char} {text text' : String}
    (hInserted : LineInserted place line text text')
    (hLine : ∀ template : Template, template.takeLine (trim line) = .ok template) :
    parse text' = (parse text).mapError (Fault.behind place) := by
  have hLength := List.length_take_of_le hInserted.inRange
  have hText : parse text = empty.takeLines 1 ((splitLines text.toList).take place ++
      (splitLines text.toList).drop place) := by rw [List.take_append_drop, parse]
  rw [hText, parse, hInserted.lines, takeLines_append, takeLines_append]
  cases hBefore : empty.takeLines 1 ((splitLines text.toList).take place) with
  | error fault =>
      have hFault : fault.line ≤ place := by
        have hBounds := takeLines_fault hBefore
        omega
      simp only [Except.mapError, Fault.behind, if_pos hFault]
  | ok template =>
      have hBehind : place < 1 + ((splitLines text.toList).take place).length := by omega
      simp only [takeLines, hLine]
      exact takeLines_behind template hBehind _

/-- Lines that are taken alike are put in alike. -/
theorem parse_takenAlike {place : Nat} {line line' : List Char} {text text' text'' : String}
    (hInserted : LineInserted place line text text')
    (hInserted' : LineInserted place line' text text'')
    (hLine : ∀ template : Template, (template.takeLine (trim line)).mapError Cause.wording =
      (template.takeLine (trim line')).mapError Cause.wording) :
    (parse text').mapError Fault.message = (parse text'').mapError Fault.message := by
  rw [parse, parse, hInserted.lines, hInserted'.lines, takeLines_append, takeLines_append]
  cases empty.takeLines 1 ((splitLines text.toList).take place) with
  | error fault => rfl
  | ok template =>
      have hTaken := hLine template
      simp only [takeLines]
      generalize template.takeLine (trim line) = taken at hTaken ⊢
      generalize template.takeLine (trim line') = taken' at hTaken ⊢
      cases taken with
      | error cause =>
          cases taken' with
          | error cause' =>
              exact congrArg Except.error (Fault.message_eq (Except.error.inj hTaken) _)
          | ok next => cases hTaken
      | ok next =>
          cases taken' with
          | error cause' => cases hTaken
          | ok next' =>
              obtain rfl : next = next' := Except.ok.inj hTaken
              rfl

/-- A keyword is trimmed together with what stands behind the first word of a trimmed line. -/
theorem trim_word_append (keyword : Keyword) (line : List Char) :
    trim (keyword.word.toList ++ (trim line).dropWhile isIdentChar) =
      keyword.word.toList ++ (trim line).dropWhile isIdentChar := by
  have hWord : ∀ c ∈ keyword.word.toList, isBlank c = false := by
    have hNone : keyword.word.toList.all (fun c => !isBlank c) = true := by
      cases keyword <;> decide
    simpa using hNone
  by_cases hRest : (trim line).dropWhile isIdentChar = []
  · rw [hRest, List.append_nil, trim_of_forall hWord]
  · obtain ⟨first, more, hFirst⟩ : ∃ first more, keyword.word.toList = first :: more := by
      cases keyword <;> exact ⟨_, _, rfl⟩
    have hTrim : trim line ≠ [] := fun hNil => hRest (by rw [hNil]; rfl)
    obtain ⟨last, hLast, hBlank⟩ := getLast?_trim hTrim
    have hSplit : (trim line).getLast? = ((trim line).dropWhile isIdentChar).getLast? := by
      conv_lhs => rw [← List.takeWhile_append_dropWhile (p := isIdentChar) (l := trim line)]
      exact List.getLast?_append_of_ne_nil _ hRest
    refine trim_of_ends (by rw [hFirst]; rfl) (hWord first (by simp [hFirst])) ?_ hBlank
    rw [List.getLast?_append_of_ne_nil _ hRest, ← hSplit, hLast]

/-- A line that begins with no keyword is passed over wherever it is put into a template: the
template is read as without it, or has the same fault, in a line that may come one later. The one
exception is a first word that begins with a keyword and goes on behind it with a character that no
keyword has. Such a line is read as if the keyword alone stood in its place. -/
theorem parse_lineInserted {place : Nat} {line : List Char} {text text' : String}
    (hInserted : LineInserted place line text text')
    (hUnknown : IsUnknown (firstWord (trim line))) :
    ((∀ keyword, ¬Continues keyword (firstWord (trim line))) →
        parse text' = (parse text).mapError (Fault.behind place)) ∧
      ∀ keyword, Continues keyword (firstWord (trim line)) → ∀ text'',
        LineInserted place (keyword.word.toList ++ (trim line).dropWhile isIdentChar) text text'' →
          (parse text').mapError Fault.message = (parse text'').mapError Fault.message := by
  constructor
  · intro hNever
    have hNone : keyword? (trim line) = none := by
      rw [Option.eq_none_iff_forall_ne_some]
      exact fun keyword hKeyword => hNever keyword ((keyword?_eq_some_iff hUnknown keyword).1 hKeyword)
    refine parse_passedOver hInserted fun template => ?_
    rw [takeLine, hNone, ite_self]
  · intro keyword hContinues text'' hInserted'
    have hKeyword := (keyword?_eq_some_iff hUnknown keyword).2 hContinues
    have hEnds : Kind.ident.endsBefore ((trim line).dropWhile isIdentChar) = true :=
      Script.head?_dropWhile_all isIdentChar (trim line)
    have hLine : ∀ c ∈ (trim line).dropWhile isIdentChar, c ≠ '\n' := by
      rintro c hMem rfl
      have hBreak := hInserted.unbroken '\n'
        ((trim_sublist line).mem ((List.dropWhile_sublist _).mem hMem))
      exact absurd hBreak (by decide)
    have hSplit : trim line = firstWord (trim line) ++ (trim line).dropWhile isIdentChar :=
      (List.takeWhile_append_dropWhile ..).symm
    have hWord : IsIdentifier keyword.word := by cases keyword <;> decide
    refine parse_takenAlike hInserted hInserted' fun template => ?_
    have hTaken := template.takeLine_alike hWord hContinues.isWord
      (Nat.le_of_lt hContinues.length_lt) hEnds hLine (keyword?_word keyword hEnds)
      (hSplit ▸ hKeyword)
    rw [trim_word_append, hTaken, ← hSplit]

/-- A line with a word of its own in front of the fault of a template, and one whose word is a keyword
with a digit behind it, which is read as a statement. -/
theorem parse_lineInserted_sample :
    parse "note Foo(\naction Foo(1);\nrule Bar()" =
        (parse "action Foo(1);\nrule Bar()").mapError (Fault.behind 0) ∧
      parse "note Foo(\naction Foo(1);\nrule Bar()" = .error ⟨.noGotoClause "Bar", 3⟩ ∧
      (parse "action1 Say(2);\naction Foo(1);").mapError Fault.message =
        (parse "action Say(2);\naction Foo(1);").mapError Fault.message ∧
      parse "action1 Say(2);\naction Foo(1);" ≠ parse "action Foo(1);" := by
  have hNote : LineInserted 0 "note Foo(".toList "action Foo(1);\nrule Bar()"
      "note Foo(\naction Foo(1);\nrule Bar()" := ⟨by decide +kernel, by decide +kernel⟩
  have hNoteWord : firstWord (trim "note Foo(".toList) = "note".toList := by decide +kernel
  have hNoteUnknown : IsUnknown "note".toList := by
    intro keyword
    cases keyword <;> decide
  have hNever : ∀ keyword, ¬Continues keyword "note".toList := by
    intro keyword hContinues
    have hLength := hContinues.length_lt
    cases keyword <;> exact absurd hLength (by decide)
  have hLong : LineInserted 0 "action1 Say(2);".toList "action Foo(1);"
      "action1 Say(2);\naction Foo(1);" := ⟨by decide +kernel, by decide +kernel⟩
  have hLongWord : firstWord (trim "action1 Say(2);".toList) = "action1".toList := by decide +kernel
  have hLongUnknown : IsUnknown "action1".toList := by
    intro keyword
    cases keyword <;> decide
  have hLongContinues : Continues .action "action1".toList :=
    ⟨"action".toList, '1', [], by decide, by decide, by decide⟩
  have hShort : LineInserted 0 "action Say(2);".toList "action Foo(1);"
      "action Say(2);\naction Foo(1);" := ⟨by decide +kernel, by decide +kernel⟩
  have hShortLine : "action Say(2);".toList =
      Keyword.action.word.toList ++ (trim "action1 Say(2);".toList).dropWhile isIdentChar := by
    decide +kernel
  refine ⟨?_, by decide +kernel, ?_, by decide +kernel⟩
  · exact (parse_lineInserted hNote (hNoteWord ▸ hNoteUnknown)).1 (hNoteWord ▸ hNever)
  · exact (parse_lineInserted hLong (hLongWord ▸ hLongUnknown)).2 .action
      (hLongWord ▸ hLongContinues) _ (hShortLine ▸ hShort)

end QuestScript.Template

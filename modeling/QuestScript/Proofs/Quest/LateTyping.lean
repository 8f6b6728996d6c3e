import QuestScript.Proofs.Quest.Normal
import QuestScript.Proofs.Text.Classes
import QuestScript.Proofs.Text.Lines
/-!
Arguments that are typed late. An argument that was typed by how it is written, and only then comes to
stand in a slot, is written there as it is when the slot typed it from the start. The values differ: a
word in an integer slot is a text for the one and zero for the other. The one argument that tells
the two apart is an integer in a string slot: the slot takes it as text, of any length, and late typing
as a number, which is written as integers are written and must not have too many digits.
-/

namespace QuestScript

open Script (Arg Kind Phrase Symbol Token)

/-! ### Words -/

/-- A text without digits at its beginning is read as the default. -/
theorem Integer.leadingD_of_noDigits {text : String}
    (hNone : leadingDigits (Text.trimStart text.toList) = []) (default : Int) :
    leadingD text default = default := by
  rw [leadingDigits] at hNone
  rw [leadingD, leadingIn?, leading?]
  dsimp only
  rw [hNone]
  rfl

theorem Integer.leadingInFault?_of_noDigits {text : String}
    (hNone : leadingDigits (Text.trimStart text.toList) = []) : leadingInFault? text = none := by
  rw [leadingInFault?, leadingFault?, hNone]
  rfl

/-- No text begins with digits that begins with a letter, an underscore or a quote. -/
theorem Integer.leadingDigits_of_head {text : String} {c : Char} {cs : List Char}
    (hChars : text.toList = c :: cs) (hStart : Script.isIdentStart c = true ∨ c = '"') :
    leadingDigits (Text.trimStart text.toList) = [] := by
  have hBlank : Text.isBlank c = false := by
    rcases hStart with hStart | rfl
    · exact Script.isBlank_eq_false_of_isGapChar (Script.isGapChar_eq_false_of_isIdentStart hStart)
    · decide
  have hDecimal : Text.isDecimal c = false := by
    rcases hStart with hStart | rfl
    · exact Script.isDecimal_eq_false_of_isIdentStart hStart
    · decide
  have hSign (mark : Char) (hMark : Script.isIdentStart mark = false ∧ mark ≠ '"') : c ≠ mark := by
    rcases hStart with hStart | rfl
    · exact Script.ne_of_isIdentStart hStart hMark.1
    · exact hMark.2.symm
  have hSplit : splitSign (c :: cs) = (false, c :: cs) := by
    unfold splitSign
    split
    · next hCons => exact absurd (List.cons.inj hCons).1 (hSign '+' (by decide))
    · next hCons => exact absurd (List.cons.inj hCons).1 (hSign '-' (by decide))
    · rfl
  rw [hChars, Text.trimStart_cons hBlank, leadingDigits, hSplit]
  exact List.takeWhile_cons_of_neg (by simp [hDecimal])

/-- No identifier begins with an integer. -/
theorem Integer.leadingDigits_identifier {text : String} (hText : IsIdentifier text) :
    leadingDigits (Text.trimStart text.toList) = [] := by
  obtain ⟨c, cs, hChars, hStart, -⟩ := Script.isWord_cases hText
  exact leadingDigits_of_head hChars (Or.inl hStart)

/-- No word that was read begins with an integer, be it of one token or of several. -/
theorem Script.Phrase.WellFormed.leadingDigits_word {phrase : Phrase} (hForm : phrase.WellFormed)
    {text : String} (hArg : phrase.arg = .word text) :
    Integer.leadingDigits (Text.trimStart text.toList) = [] := by
  obtain ⟨⟨kind, value⟩, more⟩ := phrase
  have hAdmits : kind.admits value.toList = true := hForm.first.admits
  have hArgument : (⟨kind, value⟩ : Symbol).isArgument = true := hForm.isArgument
  cases more with
  | nil =>
      cases kind <;> cases hArg <;> cases hArgument
      exact Integer.leadingDigits_identifier hAdmits
  | cons entry more =>
      have hChars : (⟨⟨kind, value⟩, entry :: more⟩ : Phrase).text.toList =
          (⟨kind, value⟩ : Symbol).source ++ Script.layout (Phrase.morePieces (entry :: more)) := by
        rw [Phrase.text, String.toList_ofList, Phrase.pieces, Script.layout_cons, Script.Piece.source]
      cases kind <;> cases hArg <;> cases hArgument
      · obtain ⟨c, cs, hValue, hStart, -⟩ := Script.isWord_cases hAdmits
        rw [Symbol.source, hValue, List.cons_append] at hChars
        exact Integer.leadingDigits_of_head hChars (Or.inl hStart)
      · exact Integer.leadingDigits_of_head hChars (Or.inr rfl)

/-! ### Arguments in slots -/

/-- An argument is written in a slot as its value is: an integer without quotes in a string slot has the
sign and the digits that integers are written with. -/
def Script.Arg.CanonicalIn : Arg → Schema.SlotType → Prop
  | .number text, .string => Integer.isLiteral text.toList = true → ∃ n : Int, text = toString n
  | _, _ => True

/-- The arguments in declared slots are written as their values are. -/
def Script.Canonical (args : List Arg) (slots : List Schema.Slot) : Prop :=
  ∀ pair ∈ args.zip slots, pair.1.CanonicalIn pair.2.type

/-- An integer without quotes in a string slot has few enough digits. -/
def Script.Arg.FitsIn : Arg → Schema.SlotType → Prop
  | .number text, .string =>
    Integer.isLiteral text.toList = true → Integer.leadingInFault? text = none
  | _, _ => True

/-- The integers in declared slots for text have few enough digits. -/
def Script.LiteralsFit (args : List Arg) (slots : List Schema.Slot) : Prop :=
  ∀ pair ∈ args.zip slots, pair.1.FitsIn pair.2.type

/-- What can be read by the way it is written has few enough digits for any slot. -/
theorem Script.Arg.fitsIn_of_sniffFault? {arg : Arg} (hRead : Param.sniffFault? arg = none)
    (type : Schema.SlotType) : arg.FitsIn type := by
  cases arg with
  | quoted text => cases type <;> trivial
  | word text => cases type <;> trivial
  | number text =>
      cases type with
      | string =>
          intro hLiteral
          rwa [Param.sniffFault?, if_pos hLiteral] at hRead
      | integer => trivial

/-- No word among arguments begins with an integer. -/
def Script.WordsPlain (args : List Arg) : Prop :=
  ∀ arg ∈ args, ∀ text, arg = .word text →
    Integer.leadingDigits (Text.trimStart text.toList) = []

namespace Param

/-- Only the decimal text of an integer is printed back as it was. Zeros in front, a plus sign or
further characters are lost. -/
theorem toString_leadingD_eq_iff (text : String) :
    toString (Integer.leadingD text 0) = text ↔ ∃ n : Int, text = toString n := by
  constructor
  · intro hText
    exact ⟨_, hText.symm⟩
  · rintro ⟨n, rfl⟩
    rw [Integer.leadingD_toString]

/-- An argument that is typed late is written as if its slot had typed it, just if it is canonical. -/
theorem printIn_sniff_eq_iff {arg : Arg}
    (hWord : ∀ text, arg = .word text → Integer.leadingDigits (Text.trimStart text.toList) = [])
    (type : Schema.SlotType) :
    (sniff arg).printIn type = (coerce arg type).printIn type ↔ arg.CanonicalIn type := by
  cases type with
  | string =>
      cases arg with
      | quoted text => exact iff_of_true rfl trivial
      | word text => exact iff_of_true rfl trivial
      | number text =>
          by_cases hLiteral : Integer.isLiteral text.toList = true
          · -- the one argument whose text is lost: late typing keeps the number that it stands for
            rw [sniff, if_pos hLiteral, Arg.CanonicalIn, forall_prop_of_true hLiteral,
              ← toString_leadingD_eq_iff]
            simp [printIn, coerce, quoted, valueText, inQuotes, Arg.text]
          · rw [sniff, if_neg hLiteral]
            exact iff_of_true rfl fun h => absurd h hLiteral
  | integer =>
      refine iff_of_true ?_ (by cases arg <;> trivial)
      cases arg with
      | quoted text => rfl
      | word text =>
          rw [sniff, printIn, Integer.leadingD_of_noDigits (hWord text rfl)]
          rfl
      | number text =>
          rw [sniff]
          split <;> rfl

/-- Typing arguments late prints the same texts exactly when no slot for text meets an integer
that is written another way. -/
theorem printList_sniff_eq_iff {args : List Arg} (hWords : Script.WordsPlain args)
    (slots : List Schema.Slot) :
    printList (ofArgs args []) slots = printList (ofArgs args slots) slots ↔
      Script.Canonical args slots := by
  induction args generalizing slots with
  | nil => exact iff_of_true rfl nofun
  | cons arg args ih =>
      obtain ⟨hWord, hRest⟩ := List.forall_mem_cons.1 hWords
      cases slots with
      | nil => exact iff_of_true rfl nofun
      | cons slot slots =>
          rw [ofArgs, ofArgs, printList, printList, List.cons_eq_cons,
            printIn_sniff_eq_iff hWord, ih hRest, Script.Canonical, Script.Canonical,
            List.zip_cons_cons, List.forall_mem_cons]

/-- An argument that is typed late is read and written just if its slot reads it, and late typing does
not have to convert a text that the slot leaves alone. -/
theorem faults_sniff_iff {arg : Arg}
    (hWord : ∀ text, arg = .word text → Integer.leadingDigits (Text.trimStart text.toList) = [])
    (type : Schema.SlotType) :
    sniffFault? arg = none ∧ (sniff arg).printInFault? type = none ↔
      coerceFault? arg type = none ∧ arg.FitsIn type := by
  cases type with
  | string =>
      have hSlot : coerceFault? arg .string = none := by cases arg <;> rfl
      rw [and_iff_right hSlot]
      constructor
      · exact fun hLate => arg.fitsIn_of_sniffFault? hLate.1 .string
      · intro hFits
        have hRead : sniffFault? arg = none := by
          cases arg with
          | number text =>
              rw [sniffFault?]
              split
              · next hLiteral => exact hFits hLiteral
              · rfl
          | quoted text => rfl
          | word text => rfl
        exact ⟨hRead, valueFault?_sniff hRead⟩
  | integer =>
      have hFits : arg.FitsIn .integer := by cases arg <;> trivial
      rw [and_iff_left hFits]
      cases arg with
      | quoted text => exact and_iff_right rfl
      | word text =>
          exact iff_of_true ⟨rfl, Integer.leadingInFault?_of_noDigits (hWord text rfl)⟩ rfl
      | number text =>
          by_cases hLiteral : Integer.isLiteral text.toList = true
          · have hPrint : (sniff (.number text)).printInFault? .integer =
                Integer.textFault? (Integer.leadingD text 0) := by
              rw [sniff, if_pos hLiteral]
              rfl
            rw [hPrint, sniffFault?, if_pos hLiteral]
            refine and_iff_left_of_imp fun hRead => ?_
            exact Integer.textFault?_eq_none_iff.2 (Integer.fits_leadingD hRead Integer.fits_zero)
          · rw [sniff, if_neg hLiteral, sniffFault?, if_neg hLiteral]
            exact and_iff_right rfl

/-- Typing late needs two things of the digits: those of typing at once, and that no slot for text
meets an integer that is too long. -/
theorem listFaults_sniff_iff {args : List Arg} (hWords : Script.WordsPlain args)
    (slots : List Schema.Slot) :
    argsFault? args [] = none ∧ listFault? (ofArgs args []) slots = none ↔
      argsFault? args slots = none ∧ Script.LiteralsFit args slots := by
  induction args generalizing slots with
  | nil => exact iff_of_true ⟨rfl, by cases slots <;> rfl⟩ ⟨by cases slots <;> rfl, nofun⟩
  | cons arg args ih =>
      obtain ⟨hWord, hRest⟩ := List.forall_mem_cons.1 hWords
      cases slots with
      | nil =>
          have hNoSlots : Script.LiteralsFit (arg :: args) [] := nofun
          rw [and_iff_left hNoSlots]
          exact and_iff_left_of_imp listFault?_ofArgs
      | cons slot slots =>
          have hArg := faults_sniff_iff hWord slot.type
          have hArgs := ih hRest slots
          rw [argsFault?, argsFault?, ofArgs, listFault?, Script.LiteralsFit, List.zip_cons_cons,
            List.forall_mem_cons]
          simp only [Option.or_eq_none_iff]
          rw [and_and_and_comm, hArg, hArgs, Script.LiteralsFit, and_and_and_comm]

/-- The texts of arguments in slots, where they were typed by some slots. -/
def typedTexts (args : List Arg) (types slots : List Schema.Slot) :
    Except Integer.Oversize (List String) := do
  writeList (← readArgs args types) slots

/-- The texts are made when neither reading nor writing meets an integer that is too long, and
then they are the printed ones. -/
theorem typedTexts_eq_ok {args : List Arg} {types slots : List Schema.Slot} {texts : List String} :
    typedTexts args types slots = .ok texts ↔
      (argsFault? args types = none ∧ listFault? (ofArgs args types) slots = none) ∧
        printList (ofArgs args types) slots = texts := by
  rw [typedTexts, readArgs, and_assoc]
  cases argsFault? args types with
  | some fault => exact iff_of_false nofun fun h => nomatch h.1
  | none => exact Integer.guarded_eq_ok.trans (and_iff_right rfl).symm

end Param

/-! ### Arguments that are read -/

/-- Arguments can be read: somewhere among the tokens of some text they are what stands up to a closing
parenthesis. -/
def Script.AreRead (args : List Arg) : Prop :=
  ∃ (text : String) (tokens after final : List Token) (call : Token),
    Script.tokenize text = .ok tokens ∧ after <:+ tokens ∧
      Script.readArgumentList call after = .ok (args, final)

/-- Arguments that are read are those of phrases, of one token or of several. -/
theorem Script.AreRead.exists_phrase {args : List Arg} (areRead : AreRead args) :
    ∀ arg ∈ args, ∃ phrase : Phrase, phrase.WellFormed ∧ phrase.arg = arg := by
  obtain ⟨text, tokens, after, final, call, hTokens, hAfter, hRead⟩ := areRead
  obtain ⟨spelling, rfl, spelled⟩ := Script.readArgumentList_spelled hRead
  have hForm (token : Token) (hMem : token ∈ spelling) : token.WellFormed :=
    Script.tokenize_wellFormed hTokens token (hAfter.subset (List.mem_append_left _ hMem))
  exact spelled.exists_phrase hForm ((Script.tokenize_chain hTokens).suffix hAfter).left_of_append

/-- Words that the tokenizer makes begin with no digit. The premise on words is thus true of every
script. -/
theorem Script.AreRead.wordsPlain {args : List Arg} (areRead : AreRead args) : WordsPlain args := by
  rintro arg hMem text rfl
  obtain ⟨phrase, hForm, hArg⟩ := areRead.exists_phrase _ hMem
  exact hForm.leadingDigits_word hArg

/-- Arguments that are typed by how they are written are written in slots as if the slots had typed
them, provided that each integer without quotes in a string slot is written as integers are; and one
that is not does make a difference. But they are written at all only if each such integer has few
enough digits: the slots take it as text, of any length. -/
theorem Param.print_typedLate {args : List Arg} (areRead : Script.AreRead args)
    (slots : List Schema.Slot) :
    ((∃ late, typedTexts args [] slots = .ok late) ↔
      (∃ early, typedTexts args slots slots = .ok early) ∧ Script.LiteralsFit args slots) ∧
    ∀ late early, typedTexts args [] slots = .ok late → typedTexts args slots slots = .ok early →
      (Script.Canonical args slots → ", ".intercalate late = ", ".intercalate early) ∧
        (late = early ↔ Script.Canonical args slots) := by
  have hWords := areRead.wordsPlain
  constructor
  · have hEarly : (∃ early, typedTexts args slots slots = .ok early) ↔
        argsFault? args slots = none := by
      simp only [typedTexts_eq_ok, exists_and_left, exists_eq', and_true]
      exact and_iff_left_of_imp listFault?_ofArgs
    have hLate : (∃ late, typedTexts args [] slots = .ok late) ↔
        argsFault? args [] = none ∧ listFault? (ofArgs args []) slots = none := by
      simp only [typedTexts_eq_ok, exists_and_left, exists_eq', and_true]
    rw [hEarly, hLate, listFaults_sniff_iff hWords]
  · intro late early hLate hEarly
    have hIff := printList_sniff_eq_iff hWords slots
    rw [(typedTexts_eq_ok.1 hLate).2, (typedTexts_eq_ok.1 hEarly).2] at hIff
    exact ⟨fun canonical => congrArg _ (hIff.2 canonical), hIff⟩

/-- Zeros in front of a number are lost in an integer slot either way; in a string slot they are lost
when the number is typed late. -/
theorem Param.print_typedLate_sample :
    let args : List Arg := [.word "x", .number "007", .number "-5", .word "b \"q\"", .number "12abc"]
    let slots : List Schema.Slot := [⟨"Count", .integer⟩, ⟨"Item", .integer⟩, ⟨"Text", .string⟩]
    let texts : List Schema.Slot := [⟨"Title", .string⟩, ⟨"Text", .string⟩]
    (Script.AreRead args ∧ Script.Canonical args slots ∧ Script.LiteralsFit args slots ∧
      ∃ late early, typedTexts args [] slots = .ok late ∧ typedTexts args slots slots = .ok early ∧
        ", ".intercalate late = ", ".intercalate early) ∧
      ∃ late early, typedTexts args [] texts = .ok late ∧ typedTexts args texts texts = .ok early ∧
        late ≠ early ∧ ¬Script.Canonical args texts := by
  intro args slots texts
  have hTokens : Script.tokenize "x, 007, -5, b\n\"q\", 12abc)" =
      .ok ((Script.tokenize "x, 007, -5, b\n\"q\", 12abc)").toOption.getD []) := by decide +kernel
  have areRead : Script.AreRead args :=
    ⟨_, _, _, [⟨.eof, "", 2, 12⟩], ⟨.ident, "Show", 1, 1⟩, hTokens, List.suffix_rfl,
      by decide +kernel⟩
  have canonical : Script.Canonical args slots :=
    List.forall_mem_cons.2 ⟨trivial, List.forall_mem_cons.2 ⟨trivial,
      List.forall_mem_singleton.2 fun _ => ⟨-5, by decide⟩⟩⟩
  have fits : Script.LiteralsFit args slots :=
    List.forall_mem_cons.2 ⟨trivial, List.forall_mem_cons.2 ⟨trivial,
      List.forall_mem_singleton.2 fun _ => by decide +kernel⟩⟩
  obtain ⟨hWritten, hSame⟩ := print_typedLate areRead slots
  obtain ⟨-, hDiffers⟩ := print_typedLate areRead texts
  have hEarly : typedTexts args slots slots = .ok ["0", "7", "\"-5\"", "b \"q\"", "12abc"] := by
    decide +kernel
  obtain ⟨late, hLate⟩ := hWritten.2 ⟨⟨_, hEarly⟩, fits⟩
  have hLateTexts : typedTexts args [] texts =
      .ok ["\"x\"", "\"7\"", "-5", "b \"q\"", "12abc"] := by
    decide +kernel
  have hEarlyTexts : typedTexts args texts texts =
      .ok ["\"x\"", "\"007\"", "-5", "b \"q\"", "12abc"] := by
    decide +kernel
  have hOther : ["\"x\"", "\"7\"", "-5", "b \"q\"", "12abc"] ≠
      ["\"x\"", "\"007\"", "-5", "b \"q\"", "12abc"] := by
    decide
  exact ⟨⟨areRead, canonical, fits, late, _, hLate, hEarly, (hSame _ _ hLate hEarly).1 canonical⟩,
    _, _, hLateTexts, hEarlyTexts, hOther,
    mt (hDiffers _ _ hLateTexts hEarlyTexts).2.2 hOther⟩

end QuestScript

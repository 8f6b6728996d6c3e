import QuestScript.Proofs.Quest.Normal
import QuestScript.Proofs.Text.Lines
import QuestScript.Schema.Signature
/-!
Signatures that are written from slots declare these slots again, and tell whether a semicolon ends the
call. Quotes hide a comma from the split of the arguments, but not a closing parenthesis from the end
of the list: one in the name of a string cuts the signature short. What stands in front of it is then
an integer, and the arguments behind it are lost.
-/

namespace QuestScript.Schema

open QuestScript.Text

/-! ### Patterns -/

/-- Whether a slot can be written: a string is named by a text without quotes, and an integer by a
trimmed text without the marks of a pattern. -/
inductive Slot.Writable : Slot → Prop where
  | string {name : String} (noQuote : '"' ∉ name.toList) : Slot.Writable ⟨name, .string⟩
  | integer {name : String} (nonempty : name ≠ "") (isTrimmed : trimmed name = name)
      (noMark : ∀ c ∈ name.toList, c ∉ [',', '"', '`', '(', ')']) : Slot.Writable ⟨name, .integer⟩

def Slot.source (slot : Slot) : List Char :=
  match slot.type with
  | .string => '"' :: (slot.name.toList ++ ['"'])
  | .integer => slot.name.toList

namespace Slot.Writable

variable {s : Slot}

theorem source_ne_nil (hSlot : s.Writable) : s.source ≠ [] := by
  cases hSlot with
  | string => exact List.cons_ne_nil _ _
  | integer hSome => simpa [Slot.source] using hSome

/-- A slot is written without blanks at its ends, unless they stand between quotes. -/
theorem trim_source (hSlot : s.Writable) : trim s.source = s.source := by
  cases hSlot with
  | @string name =>
      have hLast : ('"' :: (name.toList ++ ['"'])).getLast? = some '"' := by
        rw [← List.cons_append, List.getLast?_concat]
      exact trim_of_ends rfl (by decide) hLast (by decide)
  | integer _ hTrimmed => exact trim_toList hTrimmed

end Slot.Writable

namespace Signature

/-- An argument of a pattern: a slot, which may have a pair of backticks around it. -/
structure Argument where
  slot : Slot
  ticked : Bool
deriving DecidableEq, Repr

def Argument.source (argument : Argument) : List Char :=
  if argument.ticked then '`' :: (argument.slot.source ++ ['`']) else argument.slot.source

def pattern (name : String) (arguments : List Argument) (semicolon : Bool) : String :=
  name ++ "(" ++ ", ".intercalate (arguments.map fun argument => String.ofList argument.source) ++
    ")" ++ if semicolon then ";" else ""

def listed (texts : List (List Char)) : List Char := [',', ' '].intercalate texts

/-- A pattern is its name, its arguments between parentheses, and perhaps a semicolon. -/
theorem toList_pattern (name : String) (arguments : List Argument) (semicolon : Bool) :
    (pattern name arguments semicolon).toList =
      name.toList ++ '(' :: (listed (arguments.map Argument.source) ++
        ')' :: (if semicolon then [';'] else [])) := by
  cases semicolon <;> simp [pattern, listed, String.toList_intercalate, Function.comp_def]

theorem listed_cons_append (text : List Char) (texts : List (List Char)) (last : List Char) :
    listed (text :: (texts ++ [last])) = text ++ ',' :: ' ' :: listed (texts ++ [last]) := by
  rw [listed, List.intercalate_cons_of_ne_nil (by simp)]
  simp [listed]

/-- What a list of texts begins with, if one of them is cut. -/
theorem listed_cut (before : List (List Char)) (cut more : List Char) (after : List (List Char)) :
    ∃ rest, listed (before ++ (cut ++ more) :: after) = listed (before ++ [cut]) ++ (more ++ rest) := by
  induction before with
  | nil =>
      cases after with
      | nil => exact ⟨[], by simp [listed]⟩
      | cons next after =>
          refine ⟨',' :: ' ' :: listed (next :: after), ?_⟩
          simp [listed, List.intercalate_cons_cons]
  | cons text before ih =>
      obtain ⟨rest, hRest⟩ := ih
      refine ⟨rest, ?_⟩
      rw [List.cons_append, List.cons_append, listed_cons_append,
        listed, List.intercalate_cons_of_ne_nil (by simp), ← listed, hRest]
      simp

/-! ### The split at commas -/

/-- Whether a text has no comma that splits it, read from inside or outside of quotes, and whether
what comes after it is inside. -/
def Carries (inQuotes : Bool) (text : List Char) (after : Bool) : Prop :=
  ∀ rest first pieces, splitArguments after rest = first :: pieces →
    splitArguments inQuotes (text ++ rest) = (text ++ first) :: pieces

/-- Two texts without a comma that splits them make such a text, where the second begins inside or
outside of quotes as the first ends. -/
theorem Carries.append {first second third : Bool} {left right : List Char}
    (hLeft : Carries first left second) (hRight : Carries second right third) :
    Carries first (left ++ right) third := by
  intro rest piece pieces hRest
  rw [List.append_assoc, List.append_assoc]
  apply hLeft
  exact hRight rest piece pieces hRest

theorem carries_char {inQuotes : Bool} {c : Char} (hComma : c ≠ ',' ∨ inQuotes = true) :
    Carries inQuotes [c] (if c = '"' then !inQuotes else inQuotes) := by
  intro rest first pieces hRest
  have hKept : (c = ',' && !inQuotes) = false := by
    rcases hComma with hComma | hComma <;> simp [hComma]
  rw [List.singleton_append, splitArguments, hKept, hRest]
  rfl

theorem carries_quote (inQuotes : Bool) : Carries inQuotes ['"'] (!inQuotes) :=
  carries_char (Or.inl (by decide))

/-- A text without quotes carries them as they are. Commas in it must stand between quotes. -/
theorem carries_of_forall {inQuotes : Bool} {text : List Char}
    (hText : ∀ c ∈ text, c ≠ '"' ∧ (c ≠ ',' ∨ inQuotes = true)) :
    Carries inQuotes text inQuotes := by
  induction text with
  | nil => exact fun rest first pieces hRest => hRest
  | cons c text ih =>
      obtain ⟨⟨hQuote, hComma⟩, hMore⟩ := List.forall_mem_cons.1 hText
      have hFirst := carries_char hComma
      rw [if_neg hQuote] at hFirst
      exact hFirst.append (ih hMore)

/-- Text between quotes hides its commas. -/
theorem carries_quoted {text : List Char} (hText : '"' ∉ text) : Carries true text true :=
  carries_of_forall fun _ hMem => ⟨fun hQuote => hText (hQuote ▸ hMem), Or.inr rfl⟩

/-- A text without a comma that splits it is one argument. -/
theorem Carries.split_eq {after : Bool} {text : List Char} (hText : Carries false text after) :
    splitArguments false text = [text] := by
  have hNothing := hText [] [] [] rfl
  rwa [List.append_nil] at hNothing

/-- An argument is split off at the comma behind it, once its own quotes are closed. -/
theorem Carries.split_comma {text : List Char} (hText : Carries false text false)
    (rest : List Char) :
    splitArguments false (text ++ ',' :: rest) = text :: splitArguments false rest := by
  rw [hText (',' :: rest) [] (splitArguments false rest) rfl, List.append_nil]

theorem splitArguments_ne_nil (inQuotes : Bool) (text : List Char) :
    splitArguments inQuotes text ≠ [] := by
  cases text with
  | nil => simp [splitArguments]
  | cons c rest =>
      rw [splitArguments]
      split
      · simp
      · cases splitArguments (if c = '"' then !inQuotes else inQuotes) rest <;> simp [consLine]

theorem map_trim_split_blank (text : List Char) :
    (splitArguments false (' ' :: text)).map trim = (splitArguments false text).map trim := by
  obtain ⟨first, pieces, hPieces⟩ :=
    List.exists_cons_of_ne_nil (splitArguments_ne_nil false text)
  have hBlank : Carries false [' '] false := carries_of_forall (by simp)
  rw [← List.singleton_append, hBlank text first pieces hPieces, hPieces, List.map_cons,
    List.singleton_append, trim_cons_blank (by decide), List.map_cons]

/-- Texts in a row are split again. The last one may break off between quotes. -/
theorem map_trim_split_listed {texts : List (List Char)} {last : List Char} {after : Bool}
    (hTexts : ∀ text ∈ texts, Carries false text false) (hLast : Carries false last after) :
    (splitArguments false (listed (texts ++ [last]))).map trim = (texts ++ [last]).map trim := by
  induction texts with
  | nil => rw [List.nil_append, listed, List.intercalate_singleton, hLast.split_eq]
  | cons text texts ih =>
      obtain ⟨hText, hMore⟩ := List.forall_mem_cons.1 hTexts
      rw [List.cons_append, listed_cons_append, hText.split_comma, List.map_cons,
        map_trim_split_blank, ih hMore, List.map_cons]

/-! ### Arguments -/

theorem between?_wrapped (mark : Char) (text : List Char) :
    between? mark (mark :: (text ++ [mark])) = some text := by
  simp [between?]

/-- A mark that comes once does not stand at both ends. -/
theorem between?_eq_none {mark : Char} {text : List Char} (hOnce : text.count mark ≤ 1) :
    between? mark text = none := by
  cases text with
  | nil => rfl
  | cons first rest =>
      rw [between?, if_neg]
      intro hEnds
      simp only [Bool.and_eq_true, decide_eq_true_eq] at hEnds
      obtain ⟨rfl, hLast⟩ := hEnds
      have hMem : first ∈ rest := List.mem_of_getLast? hLast
      have hPos := List.count_pos_iff.2 hMem
      rw [List.count_cons_self] at hOnce
      omega

def untick (argument : List Char) : List Char := ((between? '`' argument).map trim).getD argument

/-- A slot is for text when quotes stand around the argument, backticks taken off. Every other
argument is an integer. -/
theorem slot_eq (argument : List Char) :
    slot argument =
      match between? '"' (untick argument) with
      | some name => ⟨String.ofList name, .string⟩
      | none => ⟨String.ofList (untick argument), .integer⟩ := rfl

section

variable {s : Slot}

theorem carries_slot (hSlot : s.Writable) : Carries false s.source false := by
  cases hSlot with
  | string hQuote =>
      exact (carries_quote false).append ((carries_quoted hQuote).append (carries_quote true))
  | integer _ _ hMarks =>
      apply carries_of_forall
      intro c hMem
      have hMark := hMarks c hMem
      simp only [List.mem_cons, not_or] at hMark
      exact ⟨hMark.2.1, Or.inl hMark.1⟩

/-- The text of a slot, without backticks, declares the slot. -/
theorem between?_slot (hSlot : s.Writable) :
    (match between? '"' s.source with
      | some name => (⟨String.ofList name, .string⟩ : Slot)
      | none => ⟨String.ofList s.source, .integer⟩) = s := by
  cases hSlot with
  | @string name =>
      have hName : between? '"' (Slot.source ⟨name, .string⟩) = some name.toList :=
        between?_wrapped '"' name.toList
      rw [hName]
      simp only [String.ofList_toList]
  | @integer name _ _ hMarks =>
      have hQuote : '"' ∉ name.toList := fun hMem => hMarks '"' hMem (by simp)
      have hNone : between? '"' (Slot.source ⟨name, .integer⟩) = none :=
        between?_eq_none (by rw [Slot.source, List.count_eq_zero.2 hQuote]; omega)
      rw [hNone]
      simp only [Slot.source, String.ofList_toList]

/-- A slot has no backticks of its own. -/
theorem untick_slot (hSlot : s.Writable) : untick s.source = s.source := by
  have hNone : between? '`' s.source = none := by
    cases hSlot with
    | string => rfl
    | integer _ _ hMarks =>
        have hTick : '`' ∉ (Slot.source ⟨_, .integer⟩) := fun hMem => hMarks '`' hMem (by simp)
        exact between?_eq_none (by rw [List.count_eq_zero.2 hTick]; omega)
  rw [untick, hNone]
  rfl

end

section

variable {argument : Argument}

theorem Argument.source_ne_nil (hSlot : argument.slot.Writable) : argument.source ≠ [] := by
  rw [Argument.source]
  split
  · exact List.cons_ne_nil _ _
  · exact hSlot.source_ne_nil

theorem Argument.trim_source (hSlot : argument.slot.Writable) :
    trim argument.source = argument.source := by
  rw [Argument.source]
  split
  · have hLast : ('`' :: (argument.slot.source ++ ['`'])).getLast? = some '`' := by
      rw [← List.cons_append, List.getLast?_concat]
    exact trim_of_ends rfl (by decide) hLast (by decide)
  · exact hSlot.trim_source

/-- No comma splits a written argument, with or without backticks around it, and its quotes are
closed at its end. -/
theorem Argument.carries (hSlot : argument.slot.Writable) : Carries false argument.source false := by
  have hTick : Carries false ['`'] false := carries_of_forall (by simp)
  rw [Argument.source]
  split
  · exact hTick.append ((carries_slot hSlot).append hTick)
  · exact carries_slot hSlot

/-- The text of an argument declares its slot. -/
theorem Argument.slot_source (hSlot : argument.slot.Writable) :
    Signature.slot argument.source = argument.slot := by
  have hUntick : untick argument.source = argument.slot.source := by
    rw [Argument.source]
    split
    · rw [untick, between?_wrapped, Option.map_some, Option.getD_some, hSlot.trim_source]
    · exact untick_slot hSlot
  rw [slot_eq, hUntick]
  exact between?_slot hSlot

end

/-! ### Signatures -/

theorem takeWhile_mark {mark : Char} {text : List Char} (hText : mark ∉ text) (rest : List Char) :
    (text ++ mark :: rest).takeWhile (· ≠ mark) = text := by
  have hOthers : ∀ c ∈ text, decide (c ≠ mark) = true := by
    intro c hMem
    rw [decide_eq_true_eq]
    rintro rfl
    exact hText hMem
  rw [List.takeWhile_append_of_pos hOthers, List.takeWhile_cons_of_neg (by simp), List.append_nil]

/-- The argument list of a call goes from its first opening parenthesis to the first closing one,
quotes or not. -/
theorem arguments?_call {name inner : List Char} (hName : '(' ∉ name) (hInner : ')' ∉ inner)
    (rest : List Char) : arguments? (name ++ '(' :: (inner ++ ')' :: rest)) = some inner := by
  have hOthers : ∀ c ∈ name, decide (c ≠ '(') = true := by
    intro c hMem
    rw [decide_eq_true_eq]
    rintro rfl
    exact hName hMem
  rw [arguments?, List.dropWhile_append_of_pos hOthers, List.dropWhile_cons_of_neg (by decide)]
  dsimp only
  rw [if_pos (by simp), takeWhile_mark hInner]

/-- The slots that arguments in a row declare. -/
theorem slots_listed {signature : String} {texts : List (List Char)} {last : List Char}
    {after : Bool} (hArguments : arguments? signature.toList = some (listed (texts ++ [last])))
    (hTexts : ∀ text ∈ texts, Carries false text false) (hLast : Carries false last after) :
    slots signature =
      (((texts ++ [last]).map trim).filter fun argument => !argument.isEmpty).map slot := by
  rw [slots, hArguments]
  dsimp only
  rw [map_trim_split_listed hTexts hLast]

/-- The arguments of a pattern are read as its slots, in their order. -/
theorem filter_sources {arguments : List Argument}
    (hWritable : ∀ argument ∈ arguments, argument.slot.Writable) :
    (((arguments.map Argument.source).map trim).filter fun argument => !argument.isEmpty).map slot =
      arguments.map Argument.slot := by
  induction arguments with
  | nil => rfl
  | cons argument arguments ih =>
      obtain ⟨hSlot, hMore⟩ := List.forall_mem_cons.1 hWritable
      have hKept : (!argument.source.isEmpty) = true := by
        simpa using Argument.source_ne_nil hSlot
      rw [List.map_cons, List.map_cons, Argument.trim_source hSlot, List.filter_cons, if_pos hKept,
        List.map_cons, Argument.slot_source hSlot, ih hMore, List.map_cons]

/-- A list of arguments without closing parentheses in it declares all of them. -/
theorem slots_of_fits {signature : String} {arguments : List Argument}
    (hArguments : arguments? signature.toList = some (listed (arguments.map Argument.source)))
    (hWritable : ∀ argument ∈ arguments, argument.slot.Writable) :
    slots signature = arguments.map Argument.slot := by
  have hSources := filter_sources hWritable
  cases arguments using List.reverseRecOn with
  | nil =>
      rw [slots, hArguments]
      rfl
  | append_singleton first last =>
      obtain ⟨hFirst, hLast⟩ := List.forall_mem_append.1 hWritable
      have hCarries : ∀ text ∈ first.map Argument.source, Carries false text false :=
        List.forall_mem_map.2 fun argument hMem => Argument.carries (hFirst argument hMem)
      have hLastCarries := Argument.carries (hLast last (List.mem_singleton_self last))
      rw [List.map_append, List.map_singleton] at hArguments hSources
      rw [slots_listed hArguments hCarries hLastCarries]
      exact hSources

/-! ### Signatures that are cut -/

/-- What is written of an argument in front of a closing parenthesis. -/
def Argument.head (argument : Argument) : List Char := argument.source.takeWhile (· ≠ ')')

/-- The name of the integer that an argument with a closing parenthesis in it declares. -/
def Argument.cutName (argument : Argument) : String := String.ofList (untick (trim argument.head))

def Argument.opening (argument : Argument) : List Char :=
  if argument.ticked then ['`', '"'] else ['"']

/-- Only the name of a string has a closing parenthesis in it. What is read of such an argument is
its opening, and the name up to the parenthesis. -/
theorem Argument.exists_head {argument : Argument} (hSlot : argument.slot.Writable)
    (hCut : ')' ∈ argument.slot.name.toList) :
    argument.slot.type = .string ∧ ∃ front rest, '"' ∉ front ∧ ')' ∉ argument.head ∧
      argument.head = argument.opening ++ front ∧
      argument.source = argument.head ++ ')' :: rest := by
  obtain ⟨slot, ticked⟩ := argument
  cases hSlot with
  | integer _ _ hMarks => exact absurd (by simp) (hMarks ')' hCut)
  | @string name hQuote =>
      obtain ⟨front, back, hName, hFront⟩ := List.eq_append_cons_of_mem hCut
      generalize hArgument : (⟨⟨name, .string⟩, ticked⟩ : Argument) = argument
      have hOpening : ')' ∉ argument.opening := by
        rw [Argument.opening]
        split <;> decide
      have hSource : ∃ rest, argument.source = (argument.opening ++ front) ++ ')' :: rest := by
        subst hArgument
        dsimp only at hName
        cases ticked with
        | true => exact ⟨back ++ ['"', '`'], by simp [Argument.source, Slot.source, opening, hName]⟩
        | false => exact ⟨back ++ ['"'], by simp [Argument.source, Slot.source, opening, hName]⟩
      obtain ⟨rest, hRest⟩ := hSource
      have hHead : argument.head = argument.opening ++ front := by
        rw [Argument.head, hRest]
        exact takeWhile_mark (by simp [hOpening, hFront]) rest
      refine ⟨by rw [← hArgument], front, rest, ?_, ?_, hHead, ?_⟩
      · intro hMem
        apply hQuote
        rw [hName]
        exact List.mem_append_left _ hMem
      · rw [hHead]
        simp [hOpening, hFront]
      · rw [hHead, hRest]

/-- It begins with a quote or a backtick, and quotes are open at its end. -/
theorem Argument.carries_head {argument : Argument} {front : List Char} (hFront : '"' ∉ front)
    (hHead : argument.head = argument.opening ++ front) : Carries false argument.head true := by
  have hOpening : Carries false argument.opening true := by
    have hTick : Carries false ['`'] false := carries_of_forall (by simp)
    rw [Argument.opening]
    split
    · exact hTick.append (carries_quote false)
    · exact carries_quote false
  rw [hHead]
  exact hOpening.append (carries_quoted hFront)

theorem trim_head_ne_nil {argument : Argument} {front : List Char}
    (hHead : argument.head = argument.opening ++ front) : trim argument.head ≠ [] := by
  have hFirst : ∃ c rest, argument.head = c :: rest ∧ isBlank c = false := by
    rw [hHead, Argument.opening]
    split
    · exact ⟨'`', _, rfl, by decide⟩
    · exact ⟨'"', _, rfl, by decide⟩
  obtain ⟨c, rest, hCons, hChar⟩ := hFirst
  have hKept : trimEnd ([c] ++ rest) = [c] ++ trimEnd rest := trimEnd_append rfl hChar
  rw [hCons, trim, trimStart_cons hChar, ← List.singleton_append, hKept]
  exact List.cons_ne_nil _ _

theorem untick_sublist (text : List Char) : (untick text).Sublist text := by
  cases text with
  | nil => exact List.Sublist.refl _
  | cons first rest =>
      rw [untick, between?]
      split
      · exact ((trim_sublist _).trans (List.dropLast_sublist rest)).cons first
      · exact List.Sublist.refl _

/-- An argument with a closing parenthesis in it declares an integer: one quote is left. -/
theorem Argument.slot_head {argument : Argument} {front : List Char} (hFront : '"' ∉ front)
    (hHead : argument.head = argument.opening ++ front) :
    Signature.slot (trim argument.head) = ⟨argument.cutName, .integer⟩ := by
  have hOnce : argument.head.count '"' ≤ 1 := by
    rw [hHead, List.count_append, List.count_eq_zero.2 hFront, Argument.opening]
    split <;> decide
  have hKept : (untick (trim argument.head)).Sublist argument.head :=
    (untick_sublist _).trans (trim_sublist _)
  rw [slot_eq, between?_eq_none (Nat.le_trans (hKept.count_le '"') hOnce)]
  rfl

/-- A pattern that is cut within an argument gives the slots before it and one more, an integer
named by what is left of it. -/
theorem slots_of_cut {signature : String} {before : List Argument} {cut : Argument}
    (hArguments : arguments? signature.toList =
      some (listed (before.map Argument.source ++ [cut.head])))
    (hBefore : ∀ argument ∈ before, argument.slot.Writable) (hSlot : cut.slot.Writable)
    (hCut : ')' ∈ cut.slot.name.toList) :
    slots signature = before.map Argument.slot ++ [⟨cut.cutName, .integer⟩] := by
  obtain ⟨-, front, rest, hFront, -, hHead, -⟩ := Argument.exists_head hSlot hCut
  have hCarries : ∀ text ∈ before.map Argument.source, Carries false text false :=
    List.forall_mem_map.2 fun argument hMem => Argument.carries (hBefore argument hMem)
  have hSources := filter_sources hBefore
  have hKept : (!(trim cut.head).isEmpty) = true := by simpa using trim_head_ne_nil hHead
  rw [slots_listed hArguments hCarries (Argument.carries_head hFront hHead), List.map_append,
    List.filter_append, List.map_append, hSources, List.map_singleton, List.filter_cons,
    if_pos hKept, List.filter_nil, List.map_singleton, Argument.slot_head hFront hHead]

/-! ### Semicolons -/

theorem getLast?_trim_concat {c : Char} (hChar : isBlank c = false) (text : List Char) :
    (trim (text ++ [c])).getLast? = some c := by
  have hStart : ∃ front, trimStart (text ++ [c]) = front ++ [c] := by
    induction text with
    | nil => exact ⟨[], trimStart_cons hChar []⟩
    | cons d text ih =>
        cases hFirst : isBlank d with
        | true =>
            obtain ⟨front, hFront⟩ := ih
            refine ⟨front, ?_⟩
            rw [List.cons_append, trimStart, List.dropWhile_cons_of_pos hFirst]
            exact hFront
        | false => exact ⟨d :: text, trimStart_cons hFirst _⟩
  obtain ⟨front, hFront⟩ := hStart
  have hKept : trimEnd ((front ++ [c]) ++ []) = (front ++ [c]) ++ trimEnd [] :=
    trimEnd_append List.getLast?_concat hChar
  rw [List.append_nil] at hKept
  rw [trim, hFront, hKept]
  simp [trimEnd]

/-- The last character tells, if it is no blank and no backtick. -/
theorem hasSemicolon_eq {signature : String} {front : List Char} {last : Char}
    (hText : signature.toList = front ++ [last]) (hBlank : isBlank last = false)
    (hTick : last ≠ '`') : hasSemicolon signature = decide (last = ';') := by
  have hKept : [last].filter (fun c => decide (c ≠ '`')) = [last] :=
    List.filter_eq_self.2 (by simpa using hTick)
  rw [hasSemicolon, hText, List.filter_append, hKept, getLast?_trim_concat hBlank]
  simp

/-- A pattern keeps its semicolon, whatever its arguments hold. -/
theorem hasSemicolon_pattern (name : String) (arguments : List Argument) (semicolon : Bool) :
    hasSemicolon (pattern name arguments semicolon) = semicolon := by
  have hText := toList_pattern name arguments semicolon
  cases semicolon with
  | true =>
      rw [if_pos rfl, List.append_cons _ ')', ← List.cons_append, ← List.append_assoc] at hText
      exact hasSemicolon_eq hText (by decide) (by decide)
  | false =>
      rw [if_neg (by decide), ← List.cons_append, ← List.append_assoc] at hText
      exact hasSemicolon_eq hText (by decide) (by decide)

/-! ### Reading back -/

theorem parenthesis_notMem_of_isIdentifier {name : String} (hName : IsIdentifier name) :
    '(' ∉ name.toList :=
  fun hMem => absurd (Script.isWord_mem hName hMem) (by decide)

theorem Argument.notMem_source {argument : Argument} (hFits : ')' ∉ argument.slot.name.toList) :
    ')' ∉ argument.source := by
  have hSlot : ')' ∉ argument.slot.source := by
    rw [Slot.source]
    split
    · simpa using hFits
    · exact hFits
  rw [Argument.source]
  split
  · simpa using hSlot
  · exact hSlot

/-- A list of texts has a character just if one of them has it, commas and blanks aside. -/
theorem notMem_listed {c : Char} (hComma : c ≠ ',') (hBlank : c ≠ ' ') {texts : List (List Char)}
    (hTexts : ∀ text ∈ texts, c ∉ text) : c ∉ listed texts := by
  induction texts with
  | nil => exact List.not_mem_nil
  | cons text texts ih =>
      obtain ⟨hText, hMore⟩ := List.forall_mem_cons.1 hTexts
      cases texts with
      | nil => simpa [listed] using hText
      | cons next texts =>
          have hRest := ih hMore
          rw [listed] at hRest ⊢
          rw [List.intercalate_cons_cons]
          simp [hText, hComma, hBlank, hRest]

/-- The slots of a pattern are those that it is written from exactly if no name has a closing
parenthesis in it. Otherwise the first argument with one declares an integer and is the last. Whether
a semicolon ends the pattern can be told in any case. -/
theorem slots_pattern {name : String} (hName : IsIdentifier name) {arguments : List Argument}
    (hWritable : ∀ argument ∈ arguments, argument.slot.Writable) (semicolon : Bool) :
    (slots (pattern name arguments semicolon) = arguments.map Argument.slot ↔
      ∀ argument ∈ arguments, ')' ∉ argument.slot.name.toList) ∧
    (∀ before cut after, arguments = before ++ cut :: after →
      (∀ argument ∈ before, ')' ∉ argument.slot.name.toList) → ')' ∈ cut.slot.name.toList →
      slots (pattern name arguments semicolon) =
        before.map Argument.slot ++ [⟨cut.cutName, .integer⟩]) ∧
    hasSemicolon (pattern name arguments semicolon) = semicolon := by
  have hOpen := parenthesis_notMem_of_isIdentifier hName
  have hCut : ∀ before cut after, arguments = before ++ cut :: after →
      (∀ argument ∈ before, ')' ∉ argument.slot.name.toList) → ')' ∈ cut.slot.name.toList →
      slots (pattern name arguments semicolon) =
        before.map Argument.slot ++ [⟨cut.cutName, .integer⟩] := by
    rintro before cut after rfl hBefore hMem
    obtain ⟨hFirst, hRest⟩ := List.forall_mem_append.1 hWritable
    have hSlot := hRest cut List.mem_cons_self
    obtain ⟨-, front, more, -, hClose, -, hSource⟩ := Argument.exists_head hSlot hMem
    obtain ⟨rest, hListed⟩ := listed_cut (before.map Argument.source) cut.head (')' :: more)
      (after.map Argument.source)
    apply slots_of_cut ?_ hFirst hSlot hMem
    rw [toList_pattern, List.map_append, List.map_cons, hSource, hListed, List.append_assoc,
      List.cons_append, List.cons_append]
    apply arguments?_call hOpen
    apply notMem_listed (by decide) (by decide)
    refine List.forall_mem_append.2 ⟨List.forall_mem_map.2 fun argument hArgument => ?_,
      List.forall_mem_singleton.2 hClose⟩
    exact Argument.notMem_source (hBefore argument hArgument)
  refine ⟨⟨fun hSlots => ?_, fun hFits => ?_⟩, hCut, hasSemicolon_pattern name arguments semicolon⟩
  · by_contra hSome
    cases hFind : arguments.find? (fun argument => argument.slot.name.toList.contains ')') with
    | none => exact hSome (by simpa using hFind)
    | some cut =>
        obtain ⟨hMem, before, after, hSplit, hBefore⟩ := List.find?_eq_some_iff_append.1 hFind
        have hCutMem : ')' ∈ cut.slot.name.toList := by simpa using hMem
        have hBroken := hCut before cut after hSplit (by simpa using hBefore) hCutMem
        have hType : cut.slot.type = .string :=
          (Argument.exists_head (hWritable cut (by simp [hSplit])) hCutMem).1
        -- The slot of this argument would be an integer.
        rw [hSlots, hSplit, List.map_append, List.map_cons, List.append_cancel_left_eq,
          List.cons.injEq] at hBroken
        rw [hBroken.1] at hType
        cases hType
  · apply slots_of_fits ?_ hWritable
    rw [toList_pattern]
    apply arguments?_call hOpen
    apply notMem_listed (by decide) (by decide)
    exact List.forall_mem_map.2 fun argument hMem => Argument.notMem_source (hFits argument hMem)

/-- Names with a comma and an opening parenthesis in them, with and without backticks, and a name
with a closing parenthesis, which costs the slot behind it too. -/
theorem slots_pattern_sample :
    let word : Argument := ⟨⟨"a, (b", .string⟩, true⟩
    let count : Argument := ⟨⟨"low value", .integer⟩, true⟩
    let cut : Argument := ⟨⟨"a ) b", .string⟩, false⟩
    IsIdentifier "Say" ∧ (∀ argument ∈ [word, count, cut], argument.slot.Writable) ∧
      pattern "Say" [word, count] true = "Say(`\"a, (b\"`, `low value`);" ∧
      slots (pattern "Say" [word, count] true) =
        [⟨"a, (b", .string⟩, ⟨"low value", .integer⟩] ∧
      slots (pattern "Say" [count, cut, word] false) =
        [⟨"low value", .integer⟩, ⟨"\"a", .integer⟩] := by
  intro word count cut
  have hName : IsIdentifier "Say" := by decide
  have hWord : word.slot.Writable := .string (by decide)
  have hCount : count.slot.Writable :=
    .integer (by decide) (by decide +kernel) (by simp)
  have hCut : cut.slot.Writable := .string (by decide)
  have hAll : ∀ argument ∈ [word, count, cut], argument.slot.Writable := by
    simp [hWord, hCount, hCut]
  refine ⟨hName, hAll, by decide +kernel, ?_, ?_⟩
  · refine (slots_pattern hName ?_ true).1.2 (by decide)
    simp [hWord, hCount]
  · have hOthers : ∀ argument ∈ [count, cut, word], argument.slot.Writable := by
      simp [hWord, hCount, hCut]
    rw [(slots_pattern hName hOthers false).2.1 [count] cut [word] rfl (by decide) (by decide)]
    decide +kernel

end Signature

end QuestScript.Schema

import QuestScript.Number.Fractional
import QuestScript.Proofs.Number.Decimal
import QuestScript.Proofs.Number.Shortest
import QuestScript.Proofs.Quest.Same
import Mathlib.Data.List.DropRight
import Mathlib.Data.Nat.Cast.Field
/-!
The text of a finite floating-point number is read back as that number, whichever of its forms the text
has: with a point among the digits, or with an exponent.
-/

namespace QuestScript

open QuestScript.Text QuestScript.Integer

namespace Integer

/-! ### Values of digits -/

/-- Reading on from a value shifts it by the digits that are still to come. -/
theorem readDigitsFrom_eq (value : ℕ) (digits : List Char) :
    readDigitsFrom value digits = value * 10 ^ digits.length + readDigits digits := by
  induction digits generalizing value with
  | nil => simp [readDigitsFrom, readDigits]
  | cons c rest ih =>
      rw [readDigits, readDigitsFrom, ih, readDigitsFrom, ih, List.length_cons, pow_succ]
      ring

/-- The digits of a number may be read in two parts, the front one shifted by the length of the
back one. -/
theorem readDigits_append (front back : List Char) :
    readDigits (front ++ back) = readDigits front * 10 ^ back.length + readDigits back := by
  have hSplit : ∀ value, readDigitsFrom value (front ++ back) =
      readDigitsFrom (readDigitsFrom value front) back := by
    induction front with
    | nil => exact fun value => rfl
    | cons c front ih => exact fun value => ih _
  rw [readDigits, hSplit, readDigitsFrom_eq]
  rfl

theorem readDigits_zeros (n : ℕ) : readDigits (List.replicate n '0') = 0 := by
  induction n with
  | zero => rfl
  | succ n ih =>
      rw [List.replicate_succ, ← List.singleton_append, readDigits_append, ih]
      simp [readDigits, readDigitsFrom, decimalValue?_of_isDigit]

/-- A text that is digits behind a sign is the integer that they write. -/
theorem leading?_of_splitSign {cs digits : List Char} {negative : Bool}
    (hSign : splitSign cs = (negative, digits)) (hDigits : ∀ c ∈ digits, c.isDigit = true)
    (hSome : digits ≠ []) : leading? cs = some (signed negative (readDigits digits)) := by
  have hTake : digits.takeWhile isDecimal = digits :=
    List.takeWhile_eq_self_iff.2 fun c hMem => isDecimal_of_isDigit (hDigits c hMem)
  rw [leading?, hSign]
  simp only [hTake]
  rw [if_neg (by simp [hSome])]

/-- A printed integer is read back as itself, with nothing left behind its digits. -/
theorem leading?_toString (n : ℤ) : leading? (toString n).toList = some n := by
  obtain ⟨c, rest, hDigits, hAll⟩ := toDigits_shape n.natAbs
  rw [leading?_of_splitSign (splitSign_toString n) (by rwa [hDigits]) (by simp [hDigits]),
    readDigits_toDigits, signed_natAbs]

/-- Digits are the digits without the zeros at their end, and these zeros. -/
theorem stripZeros_append (digits : List Char) :
    ∃ n, digits = Binary64.stripZeros digits ++ List.replicate n '0' := by
  have hZeros : digits.reverse.takeWhile (· == '0') =
      List.replicate (digits.reverse.takeWhile (· == '0')).length '0' :=
    List.eq_replicate_of_mem fun c hMem => by simpa using List.mem_takeWhile_imp hMem
  refine ⟨(digits.reverse.takeWhile (· == '0')).length, ?_⟩
  rw [Binary64.stripZeros, ← List.reverse_replicate, ← hZeros, ← List.reverse_append,
    List.takeWhile_append_dropWhile, List.reverse_reverse]

end Integer

namespace Fractional

/-! ### Reading the forms of a number -/

/-- Digits are split off up to the first character that is none. -/
theorem splitDigits_append {digits rest : List Char} (hDigits : ∀ c ∈ digits, c.isDigit = true)
    (hRest : splitDigits rest = ([], rest)) : splitDigits (digits ++ rest) = (digits, rest) := by
  have hDecimal : ∀ c ∈ digits, isDecimal c = true :=
    fun c hMem => isDecimal_of_isDigit (hDigits c hMem)
  obtain ⟨hTake, hDrop⟩ := Prod.mk.inj hRest
  rw [splitDigits, List.takeWhile_append_of_pos hDecimal, List.dropWhile_append_of_pos hDecimal,
    hTake, hDrop, List.append_nil]

theorem splitDigits_stop {c : Char} (hStop : isDecimal c = false) (rest : List Char) :
    splitDigits (c :: rest) = ([], c :: rest) := by
  rw [splitDigits, List.takeWhile_cons_of_neg (by simp [hStop]),
    List.dropWhile_cons_of_neg (by simp [hStop])]

/-- Whether a magnitude, behind any sign, is read as a decimal of some value. -/
def ReadsAs (magnitude : List Char) (x : ℚ) : Prop :=
  ∃ (digits : ℕ) (p : ℤ), (digits : ℚ) * 10 ^ p = x ∧
    ∀ (cs : List Char) (negative : Bool), splitSign cs = (negative, magnitude) →
      leading? cs = some (Binary64.ofDecimal negative digits p)

/-- A number with a point among its digits. -/
theorem readsAs_point {whole fraction rest : List Char} (hWhole : ∀ c ∈ whole, c.isDigit = true)
    (hSome : whole ≠ []) (hFraction : ∀ c ∈ fraction, c.isDigit = true)
    (hRest : splitDigits rest = ([], rest)) :
    ReadsAs (whole ++ '.' :: (fraction ++ rest))
      (readDigits (whole ++ fraction) * 10 ^ (exponent rest - fraction.length)) := by
  refine ⟨_, _, rfl, fun cs negative hSign => ?_⟩
  have hPoint : splitDigits ('.' :: (fraction ++ rest)) = ([], '.' :: (fraction ++ rest)) :=
    splitDigits_stop (by decide) _
  have hPart : splitFraction (!whole.isEmpty) ('.' :: (fraction ++ rest)) = (fraction, rest) := by
    simp [splitFraction, splitDigits_append hFraction hRest, hSome]
  rw [leading?, hSign]
  simp only [splitDigits_append hWhole hPoint, hPart]
  rw [if_neg (by simp [hSome])]

/-- A number without a point. -/
theorem readsAs_whole {whole rest : List Char} (hWhole : ∀ c ∈ whole, c.isDigit = true)
    (hSome : whole ≠ []) (hRest : splitDigits rest = ([], rest)) (hNoPoint : rest.head? ≠ some '.') :
    ReadsAs (whole ++ rest) (readDigits whole * 10 ^ exponent rest) := by
  refine ⟨_, _, rfl, fun cs negative hSign => ?_⟩
  have hPart : splitFraction (!whole.isEmpty) rest = ([], rest) := by
    unfold splitFraction
    split
    · exact absurd rfl hNoPoint
    · rfl
  rw [leading?, hSign]
  simp only [splitDigits_append hWhole hRest, hPart]
  rw [if_neg (by simp [hSome])]
  simp

/-! ### The forms of a number -/

theorem isDigit_replicate (n : ℕ) : ∀ c ∈ List.replicate n '0', c.isDigit = true := by
  intro c hMem
  rw [List.eq_of_mem_replicate hMem]
  rfl

/-- A number below one, with zeros behind the point. -/
theorem readsAs_small {digits : List Char} (hDigits : ∀ c ∈ digits, c.isDigit = true) {order : ℤ}
    (hOrder : order < 0) :
    ReadsAs (Binary64.positional digits order)
      (readDigits digits * 10 ^ (order + 1 - digits.length)) := by
  have hReads := readsAs_point (isDigit_replicate 1) (by simp)
    (List.forall_mem_append.2 ⟨isDigit_replicate ((-order).toNat - 1), hDigits⟩)
    (rfl : splitDigits [] = ([], []))
  have hValue : readDigits (List.replicate 1 '0' ++
      (List.replicate ((-order).toNat - 1) '0' ++ digits)) = readDigits digits := by
    rw [readDigits_append, readDigits_append, readDigits_zeros, readDigits_zeros]
    omega
  have hPlaces : exponent [] -
      ((List.replicate ((-order).toNat - 1) '0' ++ digits).length : ℤ) =
      order + 1 - digits.length := by
    rw [exponent, List.length_append, List.length_replicate]
    omega
  rw [hValue, hPlaces, List.append_nil] at hReads
  rw [Binary64.positional, if_pos hOrder]
  exact hReads

/-- A number of one or more, with zeros before the point if the digits end before it. -/
theorem readsAs_large {digits : List Char} (hDigits : ∀ c ∈ digits, c.isDigit = true)
    (hSome : digits ≠ []) {order : ℤ} (hOrder : ¬order < 0) :
    ReadsAs (Binary64.positional digits order)
      (readDigits digits * 10 ^ (order + 1 - digits.length)) := by
  have hTake : ∀ c ∈ digits.take (order.toNat + 1), c.isDigit = true :=
    fun c hMem => hDigits c (List.mem_of_mem_take hMem)
  have hDrop : ∀ c ∈ digits.drop (order.toNat + 1), c.isDigit = true :=
    fun c hMem => hDigits c (List.mem_of_mem_drop hMem)
  have hLength : 0 < digits.length := List.length_pos_of_ne_nil hSome
  rw [Binary64.positional, if_neg hOrder]
  dsimp only
  by_cases hShort : digits.length ≤ order.toNat + 1
  · rw [List.take_of_length_le hShort, List.drop_of_length_le hShort]
    have hReads := readsAs_point
      (List.forall_mem_append.2 ⟨hDigits, isDigit_replicate (order.toNat + 1 - digits.length)⟩)
      (by simp [hSome]) (isDigit_replicate 1) (rfl : splitDigits [] = ([], []))
    have hValue : (readDigits (digits ++ List.replicate (order.toNat + 1 - digits.length) '0' ++
        List.replicate 1 '0') : ℚ) * 10 ^ (exponent [] - ((List.replicate 1 '0').length : ℤ)) =
        readDigits digits * 10 ^ (order + 1 - digits.length) := by
      have hPlaces : order + 1 - (digits.length : ℤ) =
          ((order.toNat + 1 - digits.length + 1 : ℕ) : ℤ) + (0 - 1) := by omega
      rw [List.append_assoc, ← List.replicate_add, readDigits_append, readDigits_zeros,
        List.length_replicate, hPlaces, zpow_add₀ (by norm_num), zpow_natCast]
      push_cast
      rw [add_zero, mul_assoc]
      rfl
    rw [hValue, List.append_nil] at hReads
    exact hReads
  · have hWhole : (digits.take (order.toNat + 1)).length = order.toNat + 1 :=
      List.length_take_of_le (by omega)
    have hFraction : (digits.drop (order.toNat + 1)).length = digits.length - (order.toNat + 1) :=
      List.length_drop
    have hMore : (digits.drop (order.toNat + 1)).isEmpty = false := by
      rw [List.isEmpty_eq_false_iff, ← List.length_pos_iff, hFraction]
      omega
    have hReads := readsAs_point hTake (by rw [← List.length_pos_iff, hWhole]; omega) hDrop
      (rfl : splitDigits [] = ([], []))
    have hPlaces : exponent [] - ((digits.drop (order.toNat + 1)).length : ℤ) =
        order + 1 - digits.length := by
      rw [exponent, hFraction]
      omega
    rw [List.take_append_drop, hPlaces, List.append_nil] at hReads
    rw [hWhole, Nat.sub_self, List.replicate_zero, List.append_nil, hMore]
    exact hReads

/-- The text of an exponent: a sign, and digits that may have a zero before them. -/
theorem exponentText_shape (order : ℤ) :
    ∃ digits, Binary64.exponentText order = (if order < 0 then '-' else '+') :: digits ∧
      (∀ c ∈ digits, c.isDigit = true) ∧ digits ≠ [] ∧ readDigits digits = order.natAbs := by
  have hAll : ∀ c ∈ Nat.toDigits 10 order.natAbs, c.isDigit = true :=
    fun c hMem => Nat.isDigit_of_mem_toDigits (by decide) (by decide) hMem
  refine ⟨_, rfl, ?_⟩
  split
  · have hZero : readDigits ['0'] = 0 := readDigits_zeros 1
    refine ⟨List.forall_mem_cons.2 ⟨rfl, hAll⟩, by simp, ?_⟩
    rw [← List.singleton_append, readDigits_append, readDigits_toDigits, hZero]
    omega
  · exact ⟨hAll, by simp, readDigits_toDigits _⟩

/-- The exponent written behind a number is the exponent read there. -/
theorem exponent_exponentText (order : ℤ) :
    exponent ('e' :: Binary64.exponentText order) = order := by
  obtain ⟨digits, hText, hDigits, hSome, hValue⟩ := exponentText_shape order
  have hSign : splitSign (Binary64.exponentText order) = (decide (order < 0), digits) := by
    rw [hText]
    by_cases hNegative : order < 0
    · rw [if_pos hNegative, decide_eq_true hNegative]
      rfl
    · rw [if_neg hNegative, decide_eq_false hNegative]
      rfl
  rw [exponent, if_pos (by decide), leading?_of_splitSign hSign hDigits hSome, hValue, signed_natAbs,
    Option.getD_some]

/-- A number with an exponent. -/
theorem readsAs_exponent {digits : List Char} (hDigits : ∀ c ∈ digits, c.isDigit = true)
    (hSome : digits ≠ []) (order : ℤ) :
    ReadsAs (Binary64.pointAfterFirst digits ++ 'e' :: Binary64.exponentText order)
      (readDigits digits * 10 ^ (order + 1 - digits.length)) := by
  have hStop : splitDigits ('e' :: Binary64.exponentText order) =
      ([], 'e' :: Binary64.exponentText order) := splitDigits_stop (by decide) _
  match digits, hSome with
  | [d], _ =>
      have hReads := readsAs_whole hDigits (by simp) hStop (by simp)
      rw [exponent_exponentText] at hReads
      simpa [Binary64.pointAfterFirst] using hReads
  | d :: d' :: rest, _ =>
      obtain ⟨hFirst, hRest⟩ := List.forall_mem_cons.1 hDigits
      have hReads := readsAs_point (List.forall_mem_singleton.2 hFirst) (by simp) hRest hStop
      have hPlaces : order - ((d' :: rest).length : ℤ) =
          order + 1 - ((d :: d' :: rest).length : ℤ) := by
        rw [List.length_cons (a := d)]
        omega
      rw [exponent_exponentText, hPlaces] at hReads
      exact hReads

/-! ### The text of a number -/

def isNumeral (c : Char) : Bool := c.isDigit || c = '.' || c = 'e' || c = '+' || c = '-'

theorem isNumeral_of_isDigit {c : Char} (hDigit : c.isDigit = true) : isNumeral c = true := by
  simp [isNumeral, hDigit]

/-- Whether a text is made up of these characters, and begins with a digit. -/
structure IsNumeral (text : List Char) : Prop where
  chars : ∀ c ∈ text, isNumeral c = true
  first : ∃ c ∈ text.head?, c.isDigit = true

theorem IsNumeral.of_isDigit {digits : List Char} (hDigits : ∀ c ∈ digits, c.isDigit = true)
    (hSome : digits ≠ []) : IsNumeral digits where
  chars := fun c hMem => isNumeral_of_isDigit (hDigits c hMem)
  first := ⟨digits.head hSome, List.head?_eq_some_head hSome, hDigits _ (List.head_mem hSome)⟩

theorem IsNumeral.append {front back : List Char} (hFront : IsNumeral front)
    (hBack : ∀ c ∈ back, isNumeral c = true) : IsNumeral (front ++ back) where
  chars := List.forall_mem_append.2 ⟨hFront.chars, hBack⟩
  first := by
    obtain ⟨c, hHead, hDigit⟩ := hFront.first
    refine ⟨c, ?_, hDigit⟩
    rw [Option.mem_def] at hHead
    rw [Option.mem_def, List.head?_append, hHead, Option.some_or]

theorem isNumeral_positional {digits : List Char} (hDigits : ∀ c ∈ digits, c.isDigit = true)
    (hSome : digits ≠ []) (order : ℤ) : IsNumeral (Binary64.positional digits order) := by
  have hNumeral : ∀ c ∈ digits, isNumeral c = true :=
    fun c hMem => isNumeral_of_isDigit (hDigits c hMem)
  have hZeros : ∀ n, ∀ c ∈ List.replicate n '0', isNumeral c = true :=
    fun n c hMem => isNumeral_of_isDigit (isDigit_replicate n c hMem)
  rw [Binary64.positional]
  split
  · exact (IsNumeral.of_isDigit (isDigit_replicate 1) (by simp)).append
      (List.forall_mem_cons.2 ⟨rfl, List.forall_mem_append.2 ⟨hZeros _, hNumeral⟩⟩)
  · have hTake : ∀ c ∈ digits.take (order.toNat + 1), c.isDigit = true :=
      fun c hMem => hDigits c (List.mem_of_mem_take hMem)
    refine ((IsNumeral.of_isDigit hTake (by simp [hSome])).append (hZeros _)).append
      (List.forall_mem_cons.2 ⟨rfl, ?_⟩)
    split
    · exact hZeros 1
    · exact fun c hMem => hNumeral c (List.mem_of_mem_drop hMem)

theorem isNumeral_exponentText (order : ℤ) :
    ∀ c ∈ 'e' :: Binary64.exponentText order, isNumeral c = true := by
  obtain ⟨digits, hText, hDigits, -, -⟩ := exponentText_shape order
  rw [hText, List.forall_mem_cons, List.forall_mem_cons]
  refine ⟨rfl, ?_, fun c hMem => isNumeral_of_isDigit (hDigits c hMem)⟩
  split
  · rfl
  · rfl

theorem isNumeral_exponent {digits : List Char} (hDigits : ∀ c ∈ digits, c.isDigit = true)
    (hSome : digits ≠ []) (order : ℤ) :
    IsNumeral (Binary64.pointAfterFirst digits ++ 'e' :: Binary64.exponentText order) := by
  refine IsNumeral.append ?_ (isNumeral_exponentText order)
  match digits, hSome with
  | [d], hSome => exact IsNumeral.of_isDigit hDigits hSome
  | d :: d' :: rest, _ =>
      obtain ⟨hFirst, hRest⟩ := List.forall_mem_cons.1 hDigits
      exact (IsNumeral.of_isDigit (List.forall_mem_singleton.2 hFirst) (by simp)).append
        (List.forall_mem_cons.2 ⟨rfl, fun c hMem => isNumeral_of_isDigit (hRest c hMem)⟩)

/-- The text of a magnitude other than zero is read as its shortest decimal. -/
theorem magnitudeText_readsAs {significand : ℕ} {exponent : ℤ} (hSome : 0 < significand)
    (hDigits : (Binary64.shortest significand exponent).digits ≠ 0) :
    IsNumeral (Binary64.magnitudeText significand exponent) ∧
      ReadsAs (Binary64.magnitudeText significand exponent)
        ((Binary64.shortest significand exponent).digits *
          10 ^ (Binary64.shortest significand exponent).exponent) := by
  rw [Binary64.magnitudeText, if_neg hSome.ne']
  generalize Binary64.shortest significand exponent = decimal at hDigits
  obtain ⟨k, p⟩ := decimal
  dsimp only at hDigits ⊢
  obtain ⟨n, hSplit⟩ := stripZeros_append (Nat.toDigits 10 k)
  have hAll : ∀ c ∈ Binary64.stripZeros (Nat.toDigits 10 k), c.isDigit = true := by
    intro c hMem
    have hMem' : c ∈ Nat.toDigits 10 k := by
      rw [hSplit]
      exact List.mem_append_left _ hMem
    exact Nat.isDigit_of_mem_toDigits (by decide) (by decide) hMem'
  have hLength := congrArg List.length hSplit
  have hValue := congrArg readDigits hSplit
  rw [List.length_append, List.length_replicate] at hLength
  rw [readDigits_toDigits, readDigits_append, readDigits_zeros, List.length_replicate,
    add_zero] at hValue
  generalize Binary64.stripZeros (Nat.toDigits 10 k) = digits at hAll hValue hLength ⊢
  have hNonempty : digits ≠ [] := by
    rintro rfl
    exact hDigits (by rw [hValue]; simp [readDigits, readDigitsFrom])
  have hPlaces : (readDigits digits : ℚ) *
      10 ^ (p + ((Nat.toDigits 10 k).length : ℤ) - 1 + 1 - digits.length) = k * 10 ^ p := by
    have hSum : p + ((Nat.toDigits 10 k).length : ℤ) - 1 + 1 - digits.length = (n : ℤ) + p := by
      omega
    rw [hSum, zpow_add₀ (by norm_num), zpow_natCast, hValue]
    push_cast
    ring
  rw [← hPlaces]
  split
  · refine ⟨isNumeral_positional hAll hNonempty _, ?_⟩
    by_cases hOrder : p + ((Nat.toDigits 10 k).length : ℤ) - 1 < 0
    · exact readsAs_small hAll hOrder
    · exact readsAs_large hAll hNonempty hOrder
  · exact ⟨isNumeral_exponent hAll hNonempty _, readsAs_exponent hAll hNonempty _⟩

end Fractional

namespace Binary64

/-- A finite number, in the form that it is kept in. -/
def IsCanonical : Binary64 → Prop
  | .finite _ significand exponent => Canonical significand exponent
  | _ => False

/-- Zero has the smallest exponent. -/
theorem Canonical.exponent_zero {exponent : ℤ} (hCanonical : Canonical 0 exponent) :
    exponent = minExponent :=
  hCanonical.full.resolve_left (Nat.not_le.2 (twoPow_pos 52))

/-- The shortest decimal of a float that is not zero has a digit that is not zero. -/
theorem shortest_digits_ne_zero {significand : ℕ} {exponent : ℤ}
    (hCanonical : Canonical significand exponent) (hSome : 0 < significand) :
    (shortest significand exponent).digits ≠ 0 := by
  intro hZero
  have hLow := ((shortest_roundsTo hCanonical hSome).bounds hSome hCanonical).1
  rw [hZero, Nat.cast_zero, zero_mul, zero_mul] at hLow
  exact absurd hLow (by norm_num)

/-- The text of a magnitude is read, behind any sign, as the number. -/
theorem leading?_magnitudeText {significand : ℕ} {exponent : ℤ}
    (hCanonical : Canonical significand exponent) {cs : List Char} {negative : Bool}
    (hSign : splitSign cs = (negative, magnitudeText significand exponent)) :
    Fractional.leading? cs = some (.finite negative significand exponent) := by
  rcases Nat.eq_zero_or_pos significand with rfl | hSome
  · rw [Fractional.leading?, hSign, hCanonical.exponent_zero]
    rfl
  · obtain ⟨digits, p, hValue, hReads⟩ :=
      (Fractional.magnitudeText_readsAs hSome (shortest_digits_ne_zero hCanonical hSome)).2
    have hRounds := shortest_roundsTo hCanonical hSome
    rw [← hValue] at hRounds
    rw [hReads cs negative hSign, ofDecimal_of_roundsTo hSome hCanonical hRounds]

theorem isNumeral_magnitudeText {significand : ℕ} {exponent : ℤ}
    (hCanonical : Canonical significand exponent) :
    Fractional.IsNumeral (magnitudeText significand exponent) := by
  rcases Nat.eq_zero_or_pos significand with rfl | hSome
  · refine ⟨?_, '0', rfl, rfl⟩
    rw [magnitudeText, if_pos rfl]
    exact List.all_eq_true.1 rfl
  · exact (Fractional.magnitudeText_readsAs hSome (shortest_digits_ne_zero hCanonical hSome)).1

/-- The text of a finite number is read back as that number. -/
theorem leading?_text {x : Binary64} (hCanonical : x.IsCanonical) :
    Fractional.leading? x.text.toList = some x := by
  match x, hCanonical with
  | .finite negative significand exponent, hCanonical =>
      rw [text, String.toList_ofList]
      refine leading?_magnitudeText hCanonical ?_
      cases negative with
      | true => rfl
      | false =>
          obtain ⟨c, hHead, hDigit⟩ := (isNumeral_magnitudeText hCanonical).first
          obtain ⟨rest, hText⟩ := List.head?_eq_some_iff.1 hHead
          rw [hText]
          exact splitSign_of_isDigit rest hDigit

/-- The text of a canonical float keeps to the characters of a numeral, so it holds no mark that
ends a field. -/
theorem isNumeral_text {x : Binary64} (hCanonical : x.IsCanonical) :
    ∀ c ∈ x.text.toList, Fractional.isNumeral c = true := by
  match x, hCanonical with
  | .finite negative significand exponent, hCanonical =>
      rw [text, String.toList_ofList]
      refine List.forall_mem_append.2 ⟨?_, (isNumeral_magnitudeText hCanonical).chars⟩
      cases negative <;> exact List.all_eq_true.1 rfl

/-! ### Numbers that are integers -/

/-- The magnitude of a number that is an integer. -/
theorem natAbs_of_toInt? {negative : Bool} {significand : ℕ} {exponent n : ℤ}
    (hInt : toInt? (.finite negative significand exponent) = some n) :
    (n.natAbs : ℚ) = significand * 2 ^ exponent ∧
      n = if negative then -(n.natAbs : ℤ) else (n.natAbs : ℤ) := by
  simp only [toInt?] at hInt
  split at hInt
  · next hWhole =>
      have hScale : (twoPow (-exponent).toNat : ℚ) ≠ 0 := by exact_mod_cast (twoPow_pos _).ne'
      have hMagnitude : ((significand * twoPow exponent.toNat / twoPow (-exponent).toNat : ℕ) : ℚ) =
          significand * 2 ^ exponent := by
        rw [Nat.cast_div (Nat.dvd_of_mod_eq_zero hWhole) hScale, Nat.cast_mul,
          ← two_zpow_mul exponent]
        field_simp
      generalize significand * twoPow exponent.toNat / twoPow (-exponent).toNat = magnitude
        at hMagnitude hInt
      have hAbs : n.natAbs = magnitude := by
        cases negative <;> simp at hInt <;> omega
      rw [hAbs, hMagnitude]
      exact ⟨rfl, (Option.some.inj hInt).symm⟩
  · cases hInt

theorem toInt?_zero (negative : Bool) : (zero negative).toInt? = some 0 := by
  cases negative <;> simp [zero, toInt?]

/-- A printed integer is read as the float next to it. Nothing is rounded before that. -/
theorem leading?_toString (n : ℤ) :
    Fractional.leading? (toString n).toList = some (ofDecimal (decide (n < 0)) n.natAbs 0) := by
  obtain ⟨c, rest, hDigits, hAll⟩ := toDigits_shape n.natAbs
  rw [← hDigits] at hAll
  have hWhole : Fractional.splitDigits (Nat.toDigits 10 n.natAbs) =
      (Nat.toDigits 10 n.natAbs, []) := by
    have hSplit := Fractional.splitDigits_append hAll (rfl : Fractional.splitDigits [] = ([], []))
    rwa [List.append_nil] at hSplit
  rw [Fractional.leading?, splitSign_toString]
  simp only [hWhole, Fractional.splitFraction, List.append_nil, readDigits_toDigits]
  rw [if_neg (by simp)]
  rfl

/-- A number that is an integer is read back from the text of that integer, but for the sign of
zero. -/
theorem leading?_toString_of_toInt? {x : Binary64} (hCanonical : x.IsCanonical) {n : ℤ}
    (hInt : x.toInt? = some n) :
    ∃ y : Binary64, Fractional.leading? (toString n).toList = some y ∧ y.sameValue x = true ∧
      y.toInt? = some n ∧ ofInt? n = some y := by
  match x, hCanonical with
  | .finite negative significand exponent, hCanonical =>
      obtain ⟨hValue, hSign⟩ := natAbs_of_toInt? hInt
      rcases Nat.eq_zero_or_pos significand with rfl | hSome
      · have hZero : n = 0 := by
          rw [Nat.cast_zero, zero_mul, Nat.cast_eq_zero] at hValue
          omega
        subst hZero
        refine ⟨zero false, leading?_toString 0, ?_, toInt?_zero false, rfl⟩
        simp [sameValue, zero, scaledAt]
      · have hNegative : decide (n < 0) = negative := by
          have hPositive : (0 : ℚ) < n.natAbs := by
            rw [hValue]
            positivity
          have : 0 < n.natAbs := by exact_mod_cast hPositive
          cases negative with
          | true =>
              rw [if_pos rfl] at hSign
              exact decide_eq_true (by omega)
          | false =>
              rw [if_neg (by decide)] at hSign
              exact decide_eq_false (by omega)
        have hSelf := roundsTo_self hSome hCanonical
        rw [← hValue] at hSelf
        refine ⟨_, ?_, sameValue_refl _, hInt, ?_⟩
        · rw [leading?_toString, hNegative,
            ofDecimal_of_roundsTo hSome hCanonical (by simpa using hSelf)]
        · rw [ofInt?, hNegative,
            nearest_of_roundsTo (by decide) hSome hCanonical (by simpa using hSelf)]

end Binary64

end QuestScript

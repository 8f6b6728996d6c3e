import QuestScript.Proofs.Number.Decimal
import Mathlib.Data.List.TakeWhile
/-!
The limit on digits. An integer that is read from few enough digits has few enough digits itself, and
one that has few enough is written in a text that can be read again. So what was read can be written,
and what was written can be read.
-/

namespace QuestScript.Integer

open QuestScript.Text

/-! ### Results that come after a conversion -/

section

variable {α : Type} {fault? : Option Oversize} {result value : α} {fault : Oversize}

/-- A guarded computation succeeds exactly when nothing stands in its way, and then with its own
result. -/
theorem guarded_eq_ok : guarded fault? result = .ok value ↔ fault? = none ∧ result = value := by
  cases fault? <;> simp [guarded]

/-- A guarded computation fails with the fault that stands in its way and no other. -/
theorem guarded_eq_error : guarded fault? result = .error fault ↔ fault? = some fault := by
  cases fault? <;> simp [guarded]

@[simp]
theorem guarded_none : guarded none result = .ok result := rfl

@[simp]
theorem guarded_some : guarded (some fault) result = .error fault := rfl

/-- Whether a guarded computation succeeds does not depend on its result. -/
theorem exists_guarded_eq_ok : (∃ value, guarded fault? result = .ok value) ↔ fault? = none := by
  cases fault? <;> simp [guarded]

end

/-! ### How many digits integers have -/

theorem tenPow_succ (exponent : Nat) : tenPow (exponent + 1) = tenPow exponent * 10 := rfl

/-- More digits make room for larger integers. -/
theorem tenPow_le_tenPow {low high : Nat} (hLe : low ≤ high) : tenPow low ≤ tenPow high :=
  Nat.pow_le_pow_right (by decide) hLe

/-- A power of ten bounds the numbers with no more digits than its exponent. -/
theorem lt_tenPow_iff {n exponent : Nat} (hPos : 0 < exponent) :
    n < tenPow exponent ↔ (Nat.toDigits 10 n).length ≤ exponent :=
  (Nat.length_toDigits_le_iff (by decide) hPos).symm

/-- An integer fits when its magnitude is below the first one with too many digits. The sign does
not count. -/
theorem fits_iff {n : Int} : fits n = true ↔ n.natAbs < tenPow maxDigits := by
  rw [fits, decide_eq_true_iff]

/-- The first integer that does not fit. -/
theorem fits_tenPow_maxDigits : fits (tenPow maxDigits) = false := by
  rw [Bool.eq_false_iff, Ne, fits_iff, Int.natAbs_natCast]
  exact lt_irrefl _

/-- An integer can be written just if its decimal digits, as they would be written, are few enough. -/
theorem fits_iff_length {n : Int} :
    fits n = true ↔ (Nat.toDigits 10 n.natAbs).length ≤ maxDigits := by
  rw [fits_iff, lt_tenPow_iff (by decide)]

theorem fits_zero : fits 0 = true := by decide +kernel

theorem fits_one : fits 1 = true := by decide +kernel

/-- Writing an integer fails exactly when it does not fit. -/
theorem textFault?_eq_none_iff {n : Int} : textFault? n = none ↔ fits n = true := by
  unfold textFault?
  split <;> simp_all

/-- The only fault of writing an integer is its length. -/
theorem textFault?_eq_some {n : Int} {fault : Oversize} (hFault : textFault? n = some fault) :
    fault = .toText := by
  unfold textFault? at hFault
  split at hFault
  · cases hFault
  · exact (Option.some.inj hFault).symm

/-- Reading digits fails exactly when there are too many of them, zeros in front included. -/
theorem digitsFault?_eq_none_iff {digits : List Char} :
    digitsFault? digits = none ↔ digits.length ≤ maxDigits := by
  unfold digitsFault?
  split <;> simp_all

theorem getD_decimalValue?_lt (c : Char) : (decimalValue? c).getD 0 < 10 := by
  cases hValue : decimalValue? c with
  | none => decide
  | some value => exact decimalValueIn_lt_ten hValue

/-- Each digit that is read on multiplies the bound on the number by ten. -/
theorem readDigitsFrom_lt (digits : List Char) {value bound : Nat}
    (hValue : value < tenPow bound) :
    readDigitsFrom value digits < tenPow (bound + digits.length) := by
  induction digits generalizing value bound with
  | nil => exact hValue
  | cons c rest ih =>
      have hDigit := getD_decimalValue?_lt c
      have hNext : value * 10 + (decimalValue? c).getD 0 < tenPow (bound + 1) := by
        rw [tenPow_succ]
        omega
      rw [List.length_cons, ← Nat.add_assoc, Nat.add_right_comm]
      exact ih hNext

/-- As many digits as a number has bound it from above, so what is read within the limit can be
written again. -/
theorem readDigits_lt (digits : List Char) : readDigits digits < tenPow digits.length := by
  have hRead := @readDigitsFrom_lt digits 0 0 (by decide)
  rwa [Nat.zero_add] at hRead

theorem natAbs_signed (negative : Bool) (magnitude : Nat) :
    (signed negative magnitude).natAbs = magnitude := by
  cases negative <;> simp [signed]

/-- What is read from few enough digits can be written, in whatever script its digits were. -/
theorem fits_signed_readDigits (negative : Bool) {digits : List Char}
    (hFew : digits.length ≤ maxDigits) : fits (signed negative (readDigits digits)) = true := by
  rw [fits_iff, natAbs_signed]
  exact (readDigits_lt digits).trans_le (tenPow_le_tenPow hFew)

/-! ### Integers that texts begin with -/

/-- An integer read without fault fits, hence it can be written. -/
theorem fits_leading? {cs : List Char} {n : Int} (hFault : leadingFault? cs = none)
    (hRead : leading? cs = some n) : fits n = true := by
  rw [leadingFault?, digitsFault?_eq_none_iff, leadingDigits] at hFault
  unfold leading? at hRead
  dsimp only at hRead
  split at hRead
  · cases hRead
  · cases hRead
    exact fits_signed_readDigits _ hFault

/-- A text that can be read gives an integer that can be written; so does one that begins with none, if
the default can be written. -/
theorem fits_leadingD {text : String} {default : Int} (hFault : leadingInFault? text = none)
    (hDefault : fits default = true) : fits (leadingD text default) = true := by
  unfold leadingD
  cases hRead : leadingIn? text with
  | none => exact hDefault
  | some n => exact fits_leading? hFault hRead

theorem leadingDigits_toString (n : Int) :
    leadingDigits (toString n).toList = Nat.toDigits 10 n.natAbs := by
  rw [leadingDigits, splitSign_toString, List.takeWhile_eq_self_iff]
  exact fun c hMem =>
    isDecimal_of_isDigit (Nat.isDigit_of_mem_toDigits (by decide) (by decide) hMem)

/-- The text of an integer can be read just if the integer can be written. -/
theorem leadingFault?_toString_eq_none_iff {n : Int} :
    leadingFault? (toString n).toList = none ↔ fits n = true := by
  rw [leadingFault?, leadingDigits_toString, digitsFault?_eq_none_iff, fits_iff_length]

/-- A printed integer is read without fault exactly when it fits. Reading and writing have one
limit. -/
theorem leadingInFault?_toString_eq_none_iff {n : Int} :
    leadingInFault? (toString n) = none ↔ fits n = true := by
  rw [leadingInFault?, trimStart_toString, leadingFault?_toString_eq_none_iff]

end QuestScript.Integer

/-! ### Arguments -/

namespace QuestScript.Param

open QuestScript.Integer

/-- The same limit holds where the type of an argument is guessed from its spelling. -/
theorem sniffFault?_toString_eq_none_iff {n : Int} :
    sniffFault? (.number (toString n)) = none ↔ fits n = true := by
  rw [sniffFault?, if_pos (isLiteral_toString n), leadingInFault?_toString_eq_none_iff]

/-- An argument that is read by the way it is written can be taken as text. -/
theorem valueFault?_sniff {arg : Script.Arg} (hRead : sniffFault? arg = none) :
    (sniff arg).valueFault? = none := by
  cases arg with
  | quoted value => rfl
  | word value => rfl
  | number value =>
      unfold sniffFault? at hRead
      unfold sniff
      dsimp only at hRead ⊢
      split at hRead
      · next hLiteral =>
          rw [if_pos hLiteral]
          exact textFault?_eq_none_iff.2 (fits_leadingD hRead fits_zero)
      · next hOther =>
          rw [if_neg hOther]
          rfl

/-- An argument that is read in a declared slot can be taken as text. -/
theorem valueFault?_coerce {arg : Script.Arg} {type : Schema.SlotType}
    (hRead : coerceFault? arg type = none) : (coerce arg type).valueFault? = none := by
  cases type with
  | string => cases arg <;> rfl
  | integer =>
      have hFits {text : String} (hText : leadingInFault? text = none) :
          textFault? (leadingD text 0) = none :=
        textFault?_eq_none_iff.2 (fits_leadingD hText fits_zero)
      cases arg with
      | word value => exact textFault?_eq_none_iff.2 fits_zero
      | quoted value => exact hFits hRead
      | number value => exact hFits hRead

/-- An integer is written in a slot as it is taken as text, whatever the slot is. -/
theorem printInFault?_int (n : Int) (type : Schema.SlotType) :
    (Param.int n).printInFault? type = (Param.int n).valueFault? := by cases type <;> rfl

/-- An argument that is read in a declared slot can be written there. -/
theorem printInFault?_coerce {arg : Script.Arg} {type : Schema.SlotType}
    (hRead : coerceFault? arg type = none) : (coerce arg type).printInFault? type = none := by
  have hValue := valueFault?_coerce hRead
  cases type with
  | string => exact hValue
  | integer => cases arg <;> exact hValue

/-- Without slots every argument is read by the way it is written. -/
theorem argsFault?_nil_eq_none_iff {args : List Script.Arg} :
    argsFault? args [] = none ↔ ∀ arg ∈ args, sniffFault? arg = none := by
  induction args with
  | nil => exact iff_of_true rfl nofun
  | cons arg args ih => rw [argsFault?, Option.or_eq_none_iff, ih, List.forall_mem_cons]

/-- The arguments of a call that are read can all be taken as text. -/
theorem valueFault?_of_mem_ofArgs {args : List Script.Arg} {slots : List Schema.Slot}
    (hRead : argsFault? args slots = none) :
    ∀ param ∈ ofArgs args slots, param.valueFault? = none := by
  induction args generalizing slots with
  | nil => exact fun _ hMem => nomatch hMem
  | cons arg args ih =>
      cases slots with
      | nil =>
          rw [argsFault?, Option.or_eq_none_iff] at hRead
          exact List.forall_mem_cons.2 ⟨valueFault?_sniff hRead.1, ih hRead.2⟩
      | cons slot slots =>
          rw [argsFault?, Option.or_eq_none_iff] at hRead
          exact List.forall_mem_cons.2 ⟨valueFault?_coerce hRead.1, ih hRead.2⟩

/-- The arguments of a call that are read can all be written under the schema they were read with. -/
theorem listFault?_ofArgs {args : List Script.Arg} {slots : List Schema.Slot}
    (hRead : argsFault? args slots = none) : listFault? (ofArgs args slots) slots = none := by
  induction args generalizing slots with
  | nil => cases slots <;> rfl
  | cons arg args ih =>
      cases slots with
      | nil =>
          rw [argsFault?, Option.or_eq_none_iff] at hRead
          exact Option.or_eq_none_iff.2 ⟨valueFault?_sniff hRead.1, ih hRead.2⟩
      | cons slot slots =>
          rw [argsFault?, Option.or_eq_none_iff] at hRead
          exact Option.or_eq_none_iff.2 ⟨printInFault?_coerce hRead.1, ih hRead.2⟩

end QuestScript.Param

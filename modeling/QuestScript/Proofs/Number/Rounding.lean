import QuestScript.Number.Shortest
import Mathlib.Algebra.Order.Field.Power
import Mathlib.Algebra.Order.Field.Rat
import Mathlib.Data.Nat.Log
import Mathlib.Tactic.FieldSimp
import Mathlib.Tactic.Linarith
import Mathlib.Tactic.Positivity
import Mathlib.Tactic.Ring
/-!
Rounding to floating-point numbers. Around each of them lie the fractions that round to it: up to half
the gap to the next number on either side, the ends included where the significand is even. What
`nearest` gives for a fraction depends on its value only.
-/

namespace QuestScript

/-! ### Powers -/

theorem twoPow_eq (exponent : ℕ) : (twoPow exponent : ℚ) = 2 ^ exponent := by
  rw [twoPow]
  exact Nat.cast_pow 2 exponent

theorem tenPow_eq (exponent : ℕ) : (tenPow exponent : ℚ) = 10 ^ exponent := by
  rw [tenPow]
  exact Nat.cast_pow 10 exponent

theorem twoPow_pos (exponent : ℕ) : 0 < twoPow exponent := Nat.pow_pos (by decide)

theorem tenPow_pos (exponent : ℕ) : 0 < tenPow exponent := Nat.pow_pos (by decide)

theorem twoPow_mono {m n : ℕ} (hLe : m ≤ n) : twoPow m ≤ twoPow n :=
  Nat.pow_le_pow_right (by decide) hLe

/-- A power with its exponent split into the part above and the part below zero. -/
theorem zpow_mul_pow_toNat {base : ℚ} (hBase : base ≠ 0) (exponent : ℤ) :
    base ^ exponent * base ^ (-exponent).toNat = base ^ exponent.toNat := by
  rw [← zpow_natCast, ← zpow_natCast, ← zpow_add₀ hBase]
  congr 1
  omega

/-- A power of two with any integer exponent is a quotient of two natural powers, one of which is
one. -/
theorem two_zpow_mul (exponent : ℤ) :
    (2 : ℚ) ^ exponent * twoPow (-exponent).toNat = twoPow exponent.toNat := by
  rw [twoPow_eq, twoPow_eq]
  exact zpow_mul_pow_toNat (by norm_num) exponent

/-- Likewise for ten. This turns comparisons of scaled numbers into comparisons of naturals. -/
theorem ten_zpow_mul (exponent : ℤ) :
    (10 : ℚ) ^ exponent * tenPow (-exponent).toNat = tenPow exponent.toNat := by
  rw [tenPow_eq, tenPow_eq]
  exact zpow_mul_pow_toNat (by norm_num) exponent

namespace Binary64

/-! ### Rounding to integers -/

/-- The integer nearest to a fraction, and from the middle the even one. -/
structure IsNearest (x : ℚ) (m : ℕ) : Prop where
  low : (m : ℚ) - 1 / 2 ≤ x
  high : x ≤ m + 1 / 2
  even : x = m - 1 / 2 ∨ x = m + 1 / 2 → m % 2 = 0

/-- One half of uniqueness: a second nearest integer is never the larger one, because a tie goes
to the even of two neighbours. -/
theorem IsNearest.eq_or_lt {x : ℚ} {m n : ℕ} (hFirst : IsNearest x m) (hSecond : IsNearest x n) :
    m = n ∨ n < m := by
  by_contra hNot
  have hLess : m + 1 ≤ n := by omega
  have hStep : (m : ℚ) + 1 ≤ n := by exact_mod_cast hLess
  -- the fraction would be the middle between the two, and both of them even
  have hMiddle : x = m + 1 / 2 := by linarith [hFirst.high, hSecond.low]
  have hNext : (n : ℚ) = m + 1 := by linarith [hSecond.low]
  have hSucc : n = m + 1 := by exact_mod_cast hNext
  have hEven := hFirst.even (Or.inr hMiddle)
  have hEven' := hSecond.even (Or.inl (by rw [hMiddle, hNext]; ring))
  omega

/-- There is one nearest integer. -/
theorem IsNearest.unique {x : ℚ} {m n : ℕ} (hFirst : IsNearest x m) (hSecond : IsNearest x n) :
    m = n := by
  rcases hFirst.eq_or_lt hSecond with hEq | hLess
  · exact hEq
  · exact ((hSecond.eq_or_lt hFirst).resolve_right (Nat.lt_asymm hLess)).symm

/-- Rounding a quotient gives a nearest integer, with ties to even. -/
theorem roundDiv_isNearest (num : ℕ) {den : ℕ} (hDen : 0 < den) :
    IsNearest (num / den) (roundDiv num den) := by
  have hPos : (0 : ℚ) < den := by exact_mod_cast hDen
  have hSplit : (num : ℚ) / den = (num / den : ℕ) + (num % den : ℕ) / den := by
    have hNum : (num : ℚ) = den * (num / den : ℕ) + (num % den : ℕ) := by
      exact_mod_cast (Nat.div_add_mod num den).symm
    rw [hNum]
    field_simp
  have hRest : ((num % den : ℕ) : ℚ) / den < 1 := by
    rw [div_lt_one hPos]
    exact_mod_cast Nat.mod_lt num hDen
  have hNonneg : (0 : ℚ) ≤ (num % den : ℕ) / den := by positivity
  have hLess : 2 * (num % den) < den ↔ ((num % den : ℕ) : ℚ) / den < 1 / 2 := by
    rw [div_lt_iff₀ hPos, ← @Nat.cast_lt ℚ]
    push_cast
    constructor <;> intro h <;> linarith
  have hHalf : 2 * (num % den) = den ↔ ((num % den : ℕ) : ℚ) / den = 1 / 2 := by
    rw [div_eq_iff hPos.ne', ← @Nat.cast_inj ℚ]
    push_cast
    constructor <;> intro h <;> linarith
  rw [roundDiv, hSplit]
  simp only [hLess, hHalf]
  generalize num / den = quotient
  generalize ((num % den : ℕ) : ℚ) / den = rest at hRest hNonneg
  split
  · next hDown =>
      rcases hDown with hBelow | ⟨hMiddle, hEven⟩
      · refine ⟨by linarith, by linarith, ?_⟩
        rintro (hTie | hTie) <;> linarith
      · exact ⟨by linarith, by linarith, fun _ => hEven⟩
  · next hUp =>
      rw [not_or, not_lt, not_and] at hUp
      obtain ⟨hAbove, hOdd⟩ := hUp
      refine ⟨by push_cast; linarith, by push_cast; linarith, ?_⟩
      push_cast
      rintro (hTie | hTie)
      · have := hOdd (by linarith)
        omega
      · linarith

/-- The nearest integer is unique, so rounding finds the one that is known to be nearest. -/
theorem roundDiv_eq {num den m : ℕ} (hDen : 0 < den) (hNearest : IsNearest (num / den) m) :
    roundDiv num den = m :=
  (roundDiv_isNearest num hDen).unique hNearest

/-! ### Binary orders -/

/-- A fraction over a power of two, as `nearest` scales it. -/
theorem scaled_div (num : ℕ) {den : ℕ} (hDen : 0 < den) (exponent : ℤ) :
    ((num * twoPow (-exponent).toNat : ℕ) : ℚ) / (den * twoPow exponent.toNat : ℕ) =
      num / den / 2 ^ exponent := by
  have hPos : (0 : ℚ) < den := by exact_mod_cast hDen
  have hPower : (0 : ℚ) < twoPow (-exponent).toNat := by exact_mod_cast twoPow_pos _
  have hTwo : (0 : ℚ) < 2 ^ exponent := by positivity
  rw [Nat.cast_mul, Nat.cast_mul, ← two_zpow_mul exponent]
  field_simp

theorem div_lt_two_zpow_iff {num den : ℕ} (hDen : 0 < den) (exponent : ℤ) :
    (num : ℚ) / den < 2 ^ exponent ↔
      num * twoPow (-exponent).toNat < den * twoPow exponent.toNat := by
  have hTwo : (0 : ℚ) < 2 ^ exponent := by positivity
  have hScaled : (0 : ℚ) < (den * twoPow exponent.toNat : ℕ) := by
    exact_mod_cast Nat.mul_pos hDen (twoPow_pos _)
  rw [← div_lt_one hTwo, ← scaled_div num hDen, div_lt_one hScaled]
  exact Nat.cast_lt

/-- The order of a fraction: which powers of two it lies between. -/
theorem binaryOrder_spec {num den : ℕ} (hNum : 0 < num) (hDen : 0 < den) :
    (2 : ℚ) ^ binaryOrder num den ≤ num / den ∧
      (num : ℚ) / den < 2 ^ (binaryOrder num den + 1) := by
  have hPos : (0 : ℚ) < den := by exact_mod_cast hDen
  have hNumLow : (2 : ℚ) ^ (num.log2 : ℤ) ≤ num := by
    exact_mod_cast Nat.log2_self_le hNum.ne'
  have hNumHigh : (num : ℚ) < 2 ^ ((num.log2 : ℤ) + 1) := by
    exact_mod_cast (Nat.lt_log2_self (n := num))
  have hDenLow : (2 : ℚ) ^ (den.log2 : ℤ) ≤ den := by
    exact_mod_cast Nat.log2_self_le hDen.ne'
  have hDenHigh : (den : ℚ) < 2 ^ ((den.log2 : ℤ) + 1) := by
    exact_mod_cast (Nat.lt_log2_self (n := den))
  have hLow : (2 : ℚ) ^ ((num.log2 : ℤ) - den.log2 - 1) ≤ num / den := by
    rw [le_div_iff₀ hPos]
    calc (2 : ℚ) ^ ((num.log2 : ℤ) - den.log2 - 1) * den
        ≤ 2 ^ ((num.log2 : ℤ) - den.log2 - 1) * 2 ^ ((den.log2 : ℤ) + 1) := by gcongr
      _ = 2 ^ (num.log2 : ℤ) := by rw [← zpow_add₀ (by norm_num)]; congr 1; omega
      _ ≤ num := hNumLow
  have hHigh : (num : ℚ) / den < 2 ^ ((num.log2 : ℤ) - den.log2 + 1) := by
    rw [div_lt_iff₀ hPos]
    calc (num : ℚ) < 2 ^ ((num.log2 : ℤ) + 1) := hNumHigh
      _ = 2 ^ ((num.log2 : ℤ) - den.log2 + 1) * 2 ^ (den.log2 : ℤ) := by
        rw [← zpow_add₀ (by norm_num)]; congr 1; omega
      _ ≤ 2 ^ ((num.log2 : ℤ) - den.log2 + 1) * den := by gcongr
  simp only [binaryOrder, ← div_lt_two_zpow_iff hDen]
  split
  · next hBelow =>
      rw [sub_add_cancel]
      exact ⟨hLow, hBelow⟩
  · next hAbove => exact ⟨not_lt.1 hAbove, hHigh⟩

/-! ### Rounding to numbers -/

/-- A finite number in the one form that it is kept in: with the significand below `2 ^ 53`, and
with the exponent as small as it can be. -/
structure Canonical (significand : ℕ) (exponent : ℤ) : Prop where
  below : significand < twoPow 53
  least : minExponent ≤ exponent
  most : exponent ≤ maxExponent
  full : twoPow 52 ≤ significand ∨ exponent = minExponent

/-- Whether a fraction lies where it is rounded to `significand * 2 ^ exponent`. -/
def RoundsTo (x : ℚ) (significand : ℕ) (exponent : ℤ) : Prop :=
  let (low, high, closed) := quadEnds significand exponent
  (low * 2 ^ (exponent - 2) < x ∨ low * 2 ^ (exponent - 2) = x ∧ closed = true) ∧
    (x < high * 2 ^ (exponent - 2) ∨ x = high * 2 ^ (exponent - 2) ∧ closed = true)

variable {x : ℚ} {significand : ℕ} {exponent : ℤ}

/-- The quarter of the ends, over the power of two. -/
theorem quarter_mul_zpow (n : ℚ) (exponent : ℤ) :
    n * 2 ^ (exponent - 2) = n / 4 * 2 ^ exponent := by
  rw [zpow_sub₀ (by norm_num)]
  norm_num
  ring

/-- Over the power of two, what rounds to a number is nearest to its significand. Below a power of
two it is half as near. -/
theorem RoundsTo.scaled (hRounds : RoundsTo x significand exponent) (hSome : 0 < significand) :
    IsNearest (x / 2 ^ exponent) significand ∧
      (significand = twoPow 52 → minExponent < exponent →
        (significand : ℚ) - 1 / 4 ≤ x / 2 ^ exponent) := by
  have hTwo : (0 : ℚ) < 2 ^ exponent := by positivity
  obtain ⟨t, rfl⟩ : ∃ t, x = t * 2 ^ exponent := ⟨x / 2 ^ exponent, by field_simp⟩
  simp only [RoundsTo, quadEnds, quarter_mul_zpow, mul_lt_mul_iff_of_pos_right hTwo,
    mul_left_inj' hTwo.ne', decide_eq_true_eq] at hRounds
  rw [mul_div_cancel_right₀ _ hTwo.ne']
  obtain ⟨hLow, hHigh⟩ := hRounds
  have hHighEnd : ((4 * significand + 2 : ℕ) : ℚ) / 4 = significand + 1 / 2 := by
    push_cast
    ring
  rw [hHighEnd] at hHigh
  have hBelow : t ≤ significand + 1 / 2 := hHigh.elim le_of_lt fun hEnd => hEnd.1.le
  by_cases hEdge : significand = twoPow 52 ∧ exponent > minExponent
  · have hLowEnd : ((4 * significand - 1 : ℕ) : ℚ) / 4 = significand - 1 / 4 := by
      rw [Nat.cast_sub (by omega)]
      push_cast
      ring
    have hEven : significand % 2 = 0 := by
      rw [hEdge.1]
      decide
    rw [if_pos hEdge, hLowEnd] at hLow
    have hAbove : (significand : ℚ) - 1 / 4 ≤ t := hLow.elim le_of_lt fun hEnd => hEnd.1.le
    exact ⟨⟨by linarith, hBelow, fun _ => hEven⟩, fun _ _ => hAbove⟩
  · have hLowEnd : ((4 * significand - 2 : ℕ) : ℚ) / 4 = significand - 1 / 2 := by
      rw [Nat.cast_sub (by omega)]
      push_cast
      ring
    rw [if_neg hEdge, hLowEnd] at hLow
    refine ⟨⟨hLow.elim le_of_lt fun hEnd => hEnd.1.le, hBelow, ?_⟩,
      fun hFull hAbove => absurd ⟨hFull, hAbove⟩ hEdge⟩
    rintro (hEnd | hEnd)
    · rcases hLow with hLow | ⟨-, hEven⟩
      · exact absurd hEnd hLow.ne'
      · exact hEven
    · rcases hHigh with hHigh | ⟨-, hEven⟩
      · exact absurd hEnd hHigh.ne
      · exact hEven

/-- A fraction whose order is known is rounded at one exponent. -/
theorem nearest_of_order {num den : ℕ} (hNum : 0 < num)
    (hOrder : max (binaryOrder num den - 52) minExponent = exponent)
    (hRound : roundDiv (num * twoPow (-exponent).toNat) (den * twoPow exponent.toNat) = significand)
    (negative : Bool) :
    nearest negative num den =
      if significand = twoPow 53 then
        if exponent + 1 > maxExponent then .infinite negative
        else .finite negative (twoPow 52) (exponent + 1)
      else if exponent > maxExponent then .infinite negative
      else .finite negative significand exponent := by
  rw [nearest, if_neg hNum.ne']
  simp only [hOrder, hRound]
  split <;> rfl

theorem two_zpow_add_natCast (exponent : ℤ) (n : ℕ) :
    (2 : ℚ) ^ (exponent + n) = twoPow n * 2 ^ exponent := by
  rw [twoPow_eq, zpow_add₀ (by norm_num), zpow_natCast, mul_comm]

/-- A number less than a power of two above the unit has an order below that power. -/
theorem binaryOrder_lt {num den n : ℕ} (hNum : 0 < num) (hDen : 0 < den)
    (hLess : (num : ℚ) / den / 2 ^ exponent < twoPow n) :
    binaryOrder num den < exponent + n := by
  rw [div_lt_iff₀ (by positivity), ← two_zpow_add_natCast] at hLess
  exact (zpow_lt_zpow_iff_right₀ (by norm_num)).1
    ((binaryOrder_spec hNum hDen).1.trans_lt hLess)

/-- A number of at least a power of two has at least its order. -/
theorem le_binaryOrder {num den n : ℕ} (hNum : 0 < num) (hDen : 0 < den)
    (hMore : (twoPow n : ℚ) ≤ num / den / 2 ^ exponent) :
    exponent + n ≤ binaryOrder num den := by
  rw [le_div_iff₀ (by positivity), ← two_zpow_add_natCast] at hMore
  have := (zpow_lt_zpow_iff_right₀ (by norm_num)).1
    (hMore.trans_lt (binaryOrder_spec hNum hDen).2)
  omega

/-- A fraction just below a power of two is rounded up to it, at the exponent below that of the
power. -/
theorem nearest_below_power {num den : ℕ} (hNum : 0 < num) (hDen : 0 < den)
    (hLeast : minExponent < exponent) (hMost : exponent ≤ maxExponent)
    (hLow : (twoPow 52 : ℚ) - 1 / 4 ≤ num / den / 2 ^ exponent)
    (hHigh : (num : ℚ) / den / 2 ^ exponent < twoPow 52) (negative : Bool) :
    nearest negative num den = .finite negative (twoPow 52) exponent := by
  have hHalf : (twoPow 51 : ℚ) ≤ num / den / 2 ^ exponent := by
    have : (twoPow 51 : ℚ) + 1 ≤ twoPow 52 := by exact_mod_cast (by decide)
    linarith
  have hBefore : max (binaryOrder num den - 52) minExponent = exponent - 1 := by
    have hLess := binaryOrder_lt hNum hDen hHigh
    have hMore := le_binaryOrder hNum hDen hHalf
    omega
  have hTwice : (num : ℚ) / den / 2 ^ (exponent - 1) = 2 * (num / den / 2 ^ exponent) := by
    rw [zpow_sub₀ (by norm_num), zpow_one]
    field_simp
  have hDouble : (twoPow 53 : ℚ) = 2 * twoPow 52 := by exact_mod_cast (by decide)
  have hUp : roundDiv (num * twoPow (-(exponent - 1)).toNat)
      (den * twoPow (exponent - 1).toNat) = twoPow 53 := by
    have hScaled := scaled_div num hDen (exponent - 1)
    refine roundDiv_eq (Nat.mul_pos hDen (twoPow_pos _)) ⟨?_, ?_, fun _ => by decide⟩
    · rw [hScaled, hTwice, hDouble]
      linarith
    · rw [hScaled, hTwice, hDouble]
      linarith
  rw [nearest_of_order hNum hBefore hUp, if_pos rfl, sub_add_cancel, if_neg (not_lt.2 hMost)]

/-- Fractions that lie around a number are rounded to it. -/
theorem nearest_of_roundsTo {num den : ℕ} (hDen : 0 < den) (hSome : 0 < significand)
    (hCanonical : Canonical significand exponent)
    (hRounds : RoundsTo (num / den) significand exponent) (negative : Bool) :
    nearest negative num den = .finite negative significand exponent := by
  obtain ⟨hNearest, hPower⟩ := hRounds.scaled hSome
  have hLow := hNearest.low
  have hHigh := hNearest.high
  obtain ⟨hBelow, hLeast, hMost, hFull⟩ := hCanonical
  have hOne : (1 : ℚ) ≤ significand := by exact_mod_cast hSome
  have hNum : 0 < num := by
    rcases Nat.eq_zero_or_pos num with rfl | hNum
    · rw [Nat.cast_zero, zero_div, zero_div] at hLow
      linarith
    · exact hNum
  have hLess : binaryOrder num den < exponent + 53 := by
    have hNext : (significand : ℚ) + 1 ≤ twoPow 53 := by exact_mod_cast hBelow
    exact binaryOrder_lt hNum hDen (by linarith)
  -- the fraction has the exponent of the number, unless it is just below a power of two
  by_cases hSame : max (binaryOrder num den - 52) minExponent = exponent
  · have hRound : roundDiv (num * twoPow (-exponent).toNat) (den * twoPow exponent.toNat) =
        significand :=
      roundDiv_eq (Nat.mul_pos hDen (twoPow_pos _)) (by rwa [scaled_div num hDen exponent])
    rw [nearest_of_order hNum hSame hRound, if_neg hBelow.ne, if_neg (not_lt.2 hMost)]
  · have hAbove : minExponent < exponent := by omega
    have hShort : (num : ℚ) / den / 2 ^ exponent < twoPow 52 := by
      by_contra hLong
      have := le_binaryOrder hNum hDen (not_lt.1 hLong)
      omega
    have hEdge : significand = twoPow 52 := by
      have hNext : (significand : ℚ) < (twoPow 52 : ℕ) + 1 := by linarith
      have : significand < twoPow 52 + 1 := by exact_mod_cast hNext
      have := hFull.resolve_right hAbove.ne'
      omega
    have hQuarter := hPower hEdge hAbove
    rw [hEdge] at hQuarter ⊢
    exact nearest_below_power hNum hDen hAbove hMost hQuarter hShort negative

end Binary64

end QuestScript

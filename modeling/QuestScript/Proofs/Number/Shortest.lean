import QuestScript.Proofs.Number.Rounding
import Mathlib.Data.Nat.Cast.Order.Field
/-!
The shortest decimal of a number reads back as the number: it lies where fractions are rounded to
the number, and seventeen digits are always enough for one that does.
-/

namespace QuestScript.Binary64

variable {x : ℚ} {significand : ℕ} {exponent : ℤ}

/-! ### Comparing decimals with binary numbers -/

/-- What `compareScaled` compares are the two numbers, times one factor. -/
theorem compareScaled_factor (k : ℕ) (p : ℤ) (n : ℕ) (e : ℤ) :
    ∃ factor : ℚ, 0 < factor ∧
      (k : ℚ) * 10 ^ p * factor = (k * tenPow p.toNat * twoPow (-e).toNat : ℕ) ∧
      (n : ℚ) * 2 ^ e * factor = (n * twoPow e.toNat * tenPow (-p).toNat : ℕ) := by
  refine ⟨tenPow (-p).toNat * twoPow (-e).toNat, ?_, ?_, ?_⟩
  · exact_mod_cast Nat.mul_pos (tenPow_pos _) (twoPow_pos _)
  · rw [Nat.cast_mul, Nat.cast_mul, ← ten_zpow_mul p]
    ring
  · rw [Nat.cast_mul, Nat.cast_mul, ← two_zpow_mul e]
    ring

/-- Scaled comparison is the comparison of the numbers themselves. It multiplies out, so no
fraction is formed. -/
theorem compareScaled_eq_lt (k : ℕ) (p : ℤ) (n : ℕ) (e : ℤ) :
    compareScaled k p n e = .lt ↔ (k : ℚ) * 10 ^ p < n * 2 ^ e := by
  obtain ⟨factor, hPos, hLeft, hRight⟩ := compareScaled_factor k p n e
  rw [compareScaled, Nat.compare_eq_lt, ← mul_lt_mul_iff_of_pos_right hPos, hLeft, hRight,
    Nat.cast_lt]

theorem compareScaled_eq_eq (k : ℕ) (p : ℤ) (n : ℕ) (e : ℤ) :
    compareScaled k p n e = .eq ↔ (k : ℚ) * 10 ^ p = n * 2 ^ e := by
  obtain ⟨factor, hPos, hLeft, hRight⟩ := compareScaled_factor k p n e
  rw [compareScaled, Nat.compare_eq_eq, ← mul_left_inj' hPos.ne', hLeft, hRight, Nat.cast_inj]

theorem compareScaled_eq_gt (k : ℕ) (p : ℤ) (n : ℕ) (e : ℤ) :
    compareScaled k p n e = .gt ↔ (n : ℚ) * 2 ^ e < k * 10 ^ p := by
  obtain ⟨factor, hPos, hLeft, hRight⟩ := compareScaled_factor k p n e
  rw [compareScaled, Nat.compare_eq_gt, ← mul_lt_mul_iff_of_pos_right hPos, hLeft, hRight,
    Nat.cast_lt]

/-- A decimal that passes the check rounds to the number. -/
theorem roundsTo_of_readsBack {k : ℕ} {p : ℤ} (hReads : readsBack significand exponent k p = true) :
    RoundsTo (k * 10 ^ p) significand exponent := by
  rw [readsBack] at hReads
  rw [RoundsTo]
  generalize quadEnds significand exponent = ends at hReads ⊢
  obtain ⟨low, high, closed⟩ := ends
  simp only at hReads ⊢
  split at hReads
  · next hLow hHigh =>
      exact ⟨Or.inl ((compareScaled_eq_gt ..).1 hLow), Or.inl ((compareScaled_eq_lt ..).1 hHigh)⟩
  · next hLow hHigh =>
      exact ⟨Or.inr ⟨((compareScaled_eq_eq ..).1 hLow).symm, hReads⟩,
        Or.inl ((compareScaled_eq_lt ..).1 hHigh)⟩
  · next hLow hHigh =>
      exact ⟨Or.inl ((compareScaled_eq_gt ..).1 hLow),
        Or.inr ⟨(compareScaled_eq_eq ..).1 hHigh, hReads⟩⟩
  · cases hReads

/-- A decimal strictly between the ends passes the check. -/
theorem readsBack_of_between {k : ℕ} {p : ℤ}
    (hLow : ((quadEnds significand exponent).1 : ℚ) * 2 ^ (exponent - 2) < k * 10 ^ p)
    (hHigh : (k : ℚ) * 10 ^ p < (quadEnds significand exponent).2.1 * 2 ^ (exponent - 2)) :
    readsBack significand exponent k p = true := by
  rw [readsBack]
  generalize quadEnds significand exponent = ends at hLow hHigh ⊢
  obtain ⟨low, high, closed⟩ := ends
  simp only [(compareScaled_eq_gt ..).2 hLow, (compareScaled_eq_lt ..).2 hHigh]

/-! ### Decimal orders -/

theorem pow_length_toDigits_le {n : ℕ} (hSome : 0 < n) :
    10 ^ ((Nat.toDigits 10 n).length - 1) ≤ n := by
  by_cases hOne : (Nat.toDigits 10 n).length - 1 = 0
  · rw [hOne]
    exact hSome
  · by_contra hLess
    have := (Nat.length_toDigits_le_iff (by decide) (Nat.pos_of_ne_zero hOne)).2 (not_le.1 hLess)
    omega

theorem lt_pow_length_toDigits (n : ℕ) : n < 10 ^ (Nat.toDigits 10 n).length :=
  (Nat.length_toDigits_le_iff (by decide) Nat.length_toDigits_pos).1 le_rfl

/-- The order of a number is not above it. -/
theorem ten_zpow_decimalOrder_le (hSome : 0 < significand) (hLeast : minExponent ≤ exponent) :
    (10 : ℚ) ^ decimalOrder significand exponent ≤ significand * 2 ^ exponent := by
  have hScale : (0 : ℚ) < twoPow (-exponent).toNat := by exact_mod_cast twoPow_pos _
  have hEnough : twoPow (-exponent).toNat ≤ significand * twoPow exponent.toNat * tenPow 330 := by
    have hSmall : (-exponent).toNat ≤ 1074 := by
      rw [minExponent] at hLeast
      omega
    calc twoPow (-exponent).toNat ≤ twoPow 1074 := twoPow_mono hSmall
      _ ≤ tenPow 330 := by decide +kernel
      _ ≤ significand * twoPow exponent.toNat * tenPow 330 :=
        Nat.le_mul_of_pos_left _ (Nat.mul_pos hSome (twoPow_pos _))
  have hScaled : ((significand * twoPow exponent.toNat * tenPow 330 / twoPow (-exponent).toNat :
      ℕ) : ℚ) ≤ significand * 2 ^ exponent * tenPow 330 := by
    refine Nat.cast_div_le.trans (le_of_eq ?_)
    rw [div_eq_iff hScale.ne', Nat.cast_mul, Nat.cast_mul, ← two_zpow_mul exponent]
    ring
  have hPositive := Nat.div_pos hEnough (twoPow_pos (-exponent).toNat)
  rw [decimalOrder]
  generalize significand * twoPow exponent.toNat * tenPow 330 / twoPow (-exponent).toNat = scaled
    at hScaled hPositive
  have hDigits : (10 : ℚ) ^ ((Nat.toDigits 10 scaled).length - 1) ≤ scaled := by
    exact_mod_cast pow_length_toDigits_le hPositive
  have hLength : 0 < (Nat.toDigits 10 scaled).length := Nat.length_toDigits_pos
  have hSplit : ((Nat.toDigits 10 scaled).length : ℤ) - 331 =
      ((Nat.toDigits 10 scaled).length - 1 : ℕ) - (330 : ℕ) := by omega
  rw [hSplit, zpow_sub₀ (by norm_num), zpow_natCast, zpow_natCast, div_le_iff₀ (by positivity),
    ← tenPow_eq 330]
  exact hDigits.trans hScaled

/-! ### Seventeen digits -/

/-- A decimal is only taken when reading it gives the float back. -/
theorem ofCount?_readsBack {count : ℕ} {decimal : Decimal}
    (hFound : ofCount? significand exponent count = some decimal) :
    readsBack significand exponent decimal.digits decimal.exponent = true := by
  have hEither : ∀ (nearer farther : ℕ) (p : ℤ),
      (if readsBack significand exponent nearer p then some (⟨nearer, p⟩ : Decimal)
        else if readsBack significand exponent farther p then some ⟨farther, p⟩
        else none) = some decimal →
      readsBack significand exponent decimal.digits decimal.exponent = true := by
    intro nearer farther p hChosen
    split at hChosen
    · next hNearer =>
        cases hChosen
        exact hNearer
    · split at hChosen
      · next hFarther =>
          cases hChosen
          exact hFarther
      · cases hChosen
  exact hEither _ _ _ hFound

/-- Between the ends there is room for half a unit of the seventeenth digit. -/
theorem quadEnds_wide (hCanonical : Canonical significand exponent) (hSome : 0 < significand) :
    ((quadEnds significand exponent).1 : ℚ) / 4 < significand - significand / (2 * 10 ^ 16) ∧
      (significand : ℚ) + significand / (2 * 10 ^ 16) <
        ((quadEnds significand exponent).2.1 : ℚ) / 4 := by
  have hBelow : (significand : ℚ) < 10 ^ 16 := by
    have : significand < 10 ^ 16 := hCanonical.below.trans (by decide)
    exact_mod_cast this
  rw [quadEnds]
  refine ⟨?_, ?_⟩
  · dsimp only
    split
    · next hEdge =>
        have hPower : (2 * significand : ℚ) < 10 ^ 16 := by
          have : 2 * significand < 10 ^ 16 := by
            rw [hEdge.1]
            decide
          exact_mod_cast this
        rw [Nat.cast_sub (by omega)]
        push_cast
        linarith
    · rw [Nat.cast_sub (by omega)]
      push_cast
      linarith
  · push_cast
    linarith

/-- Seventeen digits are enough. -/
theorem ofCount?_seventeen (hCanonical : Canonical significand exponent) (hSome : 0 < significand) :
    (ofCount? significand exponent 17).isSome = true := by
  simp only [ofCount?]
  generalize hPlace : decimalOrder significand exponent - ((17 : ℕ) : ℤ) + 1 = p
  have hUnit : (10 : ℚ) ^ p ≤ significand * 2 ^ exponent / 10 ^ 16 := by
    have hOrder := ten_zpow_decimalOrder_le hSome hCanonical.least
    rw [← hPlace, le_div_iff₀ (by positivity), ← zpow_natCast, ← zpow_add₀ (by norm_num)]
    have hSum : decimalOrder significand exponent - ((17 : ℕ) : ℤ) + 1 + ((16 : ℕ) : ℤ) =
        decimalOrder significand exponent := by omega
    rwa [hSum]
  have hTen : (0 : ℚ) < 10 ^ p := by positivity
  have hTwo : (0 : ℚ) < 2 ^ exponent := by positivity
  have hDen : 0 < twoPow (-exponent).toNat * tenPow p.toNat :=
    Nat.mul_pos (twoPow_pos _) (tenPow_pos _)
  have hRatio : ((significand * twoPow exponent.toNat * tenPow (-p).toNat : ℕ) : ℚ) /
      (twoPow (-exponent).toNat * tenPow p.toNat : ℕ) = significand * 2 ^ exponent / 10 ^ p := by
    rw [div_eq_div_iff (by exact_mod_cast hDen.ne') hTen.ne']
    push_cast
    rw [← two_zpow_mul exponent, ← ten_zpow_mul p]
    ring
  have hNearest := roundDiv_isNearest
    (significand * twoPow exponent.toNat * tenPow (-p).toNat) hDen
  rw [hRatio] at hNearest
  rw [if_pos, Option.isSome_some]
  generalize roundDiv _ _ = nearer at hNearest
  have hAbove : (significand : ℚ) * 2 ^ exponent - 10 ^ p / 2 ≤ nearer * 10 ^ p := by
    have := hNearest.high
    rw [div_le_iff₀ hTen] at this
    linarith
  have hBelow : (nearer : ℚ) * 10 ^ p ≤ significand * 2 ^ exponent + 10 ^ p / 2 := by
    have := hNearest.low
    rw [le_div_iff₀ hTen] at this
    linarith
  obtain ⟨hLow, hHigh⟩ := quadEnds_wide hCanonical hSome
  refine readsBack_of_between ?_ ?_
  · rw [quarter_mul_zpow]
    have := mul_lt_mul_of_pos_right hLow hTwo
    linarith
  · rw [quarter_mul_zpow]
    have := mul_lt_mul_of_pos_right hHigh hTwo
    linarith

/-- The shortest decimal of a number rounds to the number. -/
theorem shortest_roundsTo (hCanonical : Canonical significand exponent) (hSome : 0 < significand) :
    RoundsTo ((shortest significand exponent).digits * 10 ^ (shortest significand exponent).exponent)
      significand exponent := by
  have hFound : ((List.range 17).findSome? fun i =>
      ofCount? significand exponent (i + 1)).isSome = true :=
    List.findSome?_isSome_iff.2 ⟨16, by decide, ofCount?_seventeen hCanonical hSome⟩
  obtain ⟨decimal, hDecimal⟩ := Option.isSome_iff_exists.1 hFound
  obtain ⟨i, -, hCount⟩ := List.exists_of_findSome?_eq_some hDecimal
  rw [shortest, hDecimal, Option.getD_some]
  exact roundsTo_of_readsBack (ofCount?_readsBack hCount)

/-! ### Decimals near a number -/

/-- A number that rounds to a canonical float lies far within the range in which decimals are
compared. -/
theorem RoundsTo.bounds (hRounds : RoundsTo x significand exponent) (hSome : 0 < significand)
    (hCanonical : Canonical significand exponent) :
    1 ≤ x * tenPow 400 ∧ x < tenPow 400 := by
  have hNearest := (hRounds.scaled hSome).1
  have hTwo : (0 : ℚ) < 2 ^ exponent := by positivity
  have hOne : (1 : ℚ) ≤ significand := by exact_mod_cast hSome
  have hBelow : (significand : ℚ) + 1 ≤ twoPow 53 := by exact_mod_cast hCanonical.below
  have hLow := hNearest.low
  have hHigh := hNearest.high
  rw [le_div_iff₀ hTwo] at hLow
  rw [div_le_iff₀ hTwo] at hHigh
  constructor
  · have hScale : (1 : ℚ) ≤ twoPow 1074 * 2 ^ exponent := by
      have hLeast := hCanonical.least
      rw [minExponent] at hLeast
      rw [← two_zpow_add_natCast]
      exact one_le_zpow₀ (by norm_num) (by omega)
    have hPowers : (2 : ℚ) * twoPow 1074 ≤ tenPow 400 := by exact_mod_cast (by decide +kernel)
    have hHalf : 2 ^ exponent / 2 ≤ x := by
      have : (1 : ℚ) / 2 * 2 ^ exponent ≤ (significand - 1 / 2) * 2 ^ exponent := by gcongr; linarith
      linarith
    have hReach : (0 : ℚ) ≤ tenPow 400 := Nat.cast_nonneg _
    generalize (twoPow 1074 : ℚ) = least at hScale hPowers
    generalize (tenPow 400 : ℚ) = reach at hPowers hReach
    calc (1 : ℚ) ≤ 2 ^ exponent / 2 * (2 * least) := by linarith
      _ ≤ 2 ^ exponent / 2 * reach := by gcongr
      _ ≤ x * reach := by gcongr
  · have hScale : (2 : ℚ) ^ exponent ≤ twoPow 971 := by
      rw [twoPow_eq, ← zpow_natCast]
      exact zpow_le_zpow_right₀ (by norm_num) hCanonical.most
    have hPowers : (twoPow 53 : ℚ) * twoPow 971 ≤ tenPow 400 := by
      exact_mod_cast (by decide +kernel)
    have hPos : (0 : ℚ) < twoPow 53 := by exact_mod_cast twoPow_pos 53
    generalize (twoPow 971 : ℚ) = most at hScale hPowers
    calc x ≤ (significand + 1 / 2) * 2 ^ exponent := hHigh
      _ < twoPow 53 * 2 ^ exponent := by gcongr; linarith
      _ ≤ twoPow 53 * most := by gcongr
      _ ≤ tenPow 400 := hPowers

/-- A decimal that lies near a number is taken for that number. -/
theorem ofDecimal_of_roundsTo {digits : ℕ} {p : ℤ} (hSome : 0 < significand)
    (hCanonical : Canonical significand exponent)
    (hRounds : RoundsTo (digits * 10 ^ p) significand exponent) (negative : Bool) :
    ofDecimal negative digits p = .finite negative significand exponent := by
  obtain ⟨hLow, hHigh⟩ := hRounds.bounds hSome hCanonical
  have hTen : (0 : ℚ) < 10 ^ p := by positivity
  have hDigits : digits ≠ 0 := by
    rintro rfl
    rw [Nat.cast_zero, zero_mul, zero_mul] at hLow
    exact absurd hLow (by norm_num)
  have hLength : 0 < (Nat.toDigits 10 digits).length := Nat.length_toDigits_pos
  have hAbove : (10 : ℚ) ^ ((Nat.toDigits 10 digits).length - 1) ≤ digits := by
    exact_mod_cast pow_length_toDigits_le (Nat.pos_of_ne_zero hDigits)
  have hBelow : (digits : ℚ) < 10 ^ (Nat.toDigits 10 digits).length := by
    exact_mod_cast lt_pow_length_toDigits digits
  rw [tenPow_eq, ← zpow_natCast] at hLow hHigh
  have hNotHuge : ¬p + ((Nat.toDigits 10 digits).length : ℤ) > decimalReach := by
    have hFirst : (10 : ℚ) ^ ((((Nat.toDigits 10 digits).length - 1 : ℕ) : ℤ) + p) ≤
        digits * 10 ^ p := by
      rw [zpow_add₀ (by norm_num), zpow_natCast]
      gcongr
    have := (zpow_lt_zpow_iff_right₀ (by norm_num)).1 (hFirst.trans_lt hHigh)
    rw [decimalReach]
    omega
  have hNotTiny : ¬p + ((Nat.toDigits 10 digits).length : ℤ) < -decimalReach := by
    have hFirst : (10 : ℚ) ^ (0 : ℤ) <
        10 ^ (((Nat.toDigits 10 digits).length : ℤ) + p + (400 : ℕ)) := by
      rw [zpow_zero, zpow_add₀ (by norm_num), zpow_add₀ (by norm_num), zpow_natCast]
      refine hLow.trans_lt ?_
      gcongr
    have := (zpow_lt_zpow_iff_right₀ (by norm_num)).1 hFirst
    rw [decimalReach]
    omega
  rw [ofDecimal]
  simp only [if_neg hDigits, if_neg hNotHuge, if_neg hNotTiny]
  refine nearest_of_roundsTo (tenPow_pos _) hSome hCanonical ?_ negative
  rw [Nat.cast_mul, ← ten_zpow_mul p, ← mul_assoc, mul_div_cancel_right₀]
  · exact hRounds
  · exact_mod_cast (tenPow_pos _).ne'

/-- A number is near itself. -/
theorem roundsTo_self (hSome : 0 < significand) (hCanonical : Canonical significand exponent) :
    RoundsTo (significand * 2 ^ exponent) significand exponent := by
  have hTwo : (0 : ℚ) < 2 ^ exponent := by positivity
  have hMargin : (0 : ℚ) < significand / (2 * 10 ^ 16) := by
    have : (0 : ℚ) < significand := by exact_mod_cast hSome
    positivity
  obtain ⟨hLow, hHigh⟩ := quadEnds_wide hCanonical hSome
  have hAbove : ((quadEnds significand exponent).1 : ℚ) / 4 * 2 ^ exponent <
      significand * 2 ^ exponent := mul_lt_mul_of_pos_right (by linarith) hTwo
  have hBelow : (significand : ℚ) * 2 ^ exponent <
      (quadEnds significand exponent).2.1 / 4 * 2 ^ exponent :=
    mul_lt_mul_of_pos_right (by linarith) hTwo
  rw [← quarter_mul_zpow] at hAbove hBelow
  exact ⟨Or.inl hAbove, Or.inl hBelow⟩

end QuestScript.Binary64

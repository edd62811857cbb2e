import Mathlib.Data.Nat.Cast.Field
import Tariff.Proofs.Numeral.Fitting

/-!
# Exact results

Every operation has an exact rational result, which is then fitted to the digits that are kept
(`exists_add?`, `exists_sub?`, `exists_mul?`, `exists_neg?`). Fitting leaves a value as it is
exactly if a narrow number is equal to it (`toRat_fit?_iff`): one of at most 28 digits, none of
which counts too small or too large a power of ten. It does not matter how the number is written
that is fitted, with how many digits or with how many zeros behind them.

A quotient is not always computed to its end. If a narrow number is equal to it then it is, since
one digit more than are kept stands in the part that is computed (`pow_precision_lt`,
`exists_div?`).
-/

namespace Tariff

open Numeral

namespace Decimal

variable {a b d e w : Decimal}

theorem zpow_mul_pow_toNat {b : ℚ} (hb : b ≠ 0) (k : ℤ) : b ^ k * b ^ (-k).toNat = b ^ k.toNat := by
  rw [← zpow_natCast, ← zpow_natCast, ← zpow_add₀ hb]
  congr 1
  omega

theorem zpow_eq_pow_mul_zpow {j k : ℤ} (h : k ≤ j) :
    (10 : ℚ) ^ j = 10 ^ (j - k).toNat * 10 ^ k := by
  rw [← zpow_natCast, ← zpow_add₀ (by norm_num), Int.toNat_of_nonneg (Int.sub_nonneg.mpr h),
    Int.sub_add_cancel]

/-! ## Numbers that are kept -/

/-- A number of few digits, none of which counts too small or too large a power of ten. -/
def IsNarrow (d : Decimal) : Prop :=
  d.coeff < 10 ^ precision ∧ tinyExponent ≤ d.exp ∧ d.leadingExponent ≤ maxExponent

instance (d : Decimal) : Decidable d.IsNarrow :=
  inferInstanceAs (Decidable (_ ∧ _))

/-- A rational number that a narrow one is equal to. -/
def IsKept (q : ℚ) : Prop :=
  ∃ w : Decimal, w.IsNarrow ∧ w.toRat = q

theorem coeff_ne_zero_of_toRat_ne_zero (h : d.toRat ≠ 0) : d.coeff ≠ 0 :=
  mt toRat_of_coeff_eq_zero h

theorem toRat_eq_zero_iff : d.toRat = 0 ↔ d.coeff = 0 := by
  refine ⟨fun h => ?_, toRat_of_coeff_eq_zero⟩
  have habs := abs_toRat d
  rw [h, abs_zero] at habs
  have hpower : (10 : ℚ) ^ d.exp ≠ 0 := zpow_ne_zero _ (by norm_num)
  exact_mod_cast (mul_eq_zero.mp habs.symm).resolve_right hpower

theorem leadingExponent_le_of_abs_le (hd : d.coeff ≠ 0) (h : |d.toRat| ≤ |w.toRat|) :
    d.leadingExponent ≤ w.leadingExponent := by
  have hlt : (10 : ℚ) ^ d.leadingExponent < 10 ^ (w.leadingExponent + 1) :=
    (pow_leadingExponent_le hd).trans_lt (h.trans_lt (abs_toRat_lt w))
  have := (zpow_lt_zpow_iff_right₀ (by norm_num)).mp hlt
  omega

/-- Of two rows of digits for one number, the one with the smaller exponent has the zeros behind its
digits that the other one counts by its exponent. -/
theorem coeff_eq_of_abs_eq (h : |d.toRat| = |w.toRat|) (hexp : d.exp ≤ w.exp) :
    d.coeff = w.coeff * 10 ^ (w.exp - d.exp).toNat := by
  rw [abs_toRat, abs_toRat, zpow_eq_pow_mul_zpow hexp, ← mul_assoc] at h
  have hcoeff := mul_right_cancel₀ (zpow_ne_zero _ (by norm_num)) h
  exact_mod_cast hcoeff

/-! ## Fitting leaves a value as it is -/

/-- The digits that are cut off a number that is kept are zeros. -/
theorem pow_cut_dvd (h : IsKept d.toRat) : 10 ^ d.cut ∣ d.coeff := by
  obtain ⟨w, ⟨hcoeff, hexp, -⟩, hvalue⟩ := h
  by_cases hzero : d.coeff = 0
  · rw [hzero]
    exact dvd_zero _
  by_cases hcut : d.cut = 0
  · rw [hcut]
    exact one_dvd _
  have habs : |d.toRat| = |w.toRat| := by rw [hvalue]
  have hlead := leadingExponent_le_of_abs_le hzero habs.le
  have hcount := (digitCount_le_iff (by decide)).mpr hcoeff
  -- what is cut off lies below the last digit of the narrow number
  have hlast : d.exp + d.cut ≤ w.exp := by
    simp only [cut, leadingExponent] at hcut hlead ⊢
    omega
  rw [coeff_eq_of_abs_eq habs (by omega)]
  exact (pow_dvd_pow 10 (by omega)).mul_left _

theorem kept_mul_of_dvd (h : 10 ^ d.cut ∣ d.coeff) : d.kept * 10 ^ d.cut = d.coeff :=
  (divHalfEven_mul_eq_iff (Nat.pow_pos (by decide))).mpr h

theorem kept_lt_of_dvd (h : 10 ^ d.cut ∣ d.coeff) : d.kept < 10 ^ precision := by
  have hpower : 10 ^ digitCount d.coeff ≤ 10 ^ precision * 10 ^ d.cut := by
    rw [← Nat.pow_add]
    refine Nat.pow_le_pow_right (by decide) ?_
    unfold cut
    omega
  have hlt := (kept_mul_of_dvd h).trans_lt ((lt_pow_digitCount d.coeff).trans_le hpower)
  exact Nat.lt_of_mul_lt_mul_right hlt

theorem fit?_isSome_of_kept_lt (hlead : d.leadingExponent ≤ maxExponent)
    (hkept : d.kept < 10 ^ precision) : d.fit?.isSome := by
  unfold fit?
  split
  · rfl
  · have htop : ¬ topExponent < d.exp + digitCount d.coeff - precision := by
      simp only [leadingExponent, topExponent] at hlead ⊢
      omega
    dsimp only
    rw [if_neg htop]
    split
    · have hdigits : divHalfEven d.coeff (Nat.pow 10
          (max (d.exp + digitCount d.coeff - precision) tinyExponent - d.exp).toNat) = d.kept := rfl
      rw [hdigits]
      split
      · rfl
      · -- a carry would have had one digit more
        next hcarry => exact absurd hkept hcarry
    · rfl

/-- **What is kept is fitted without a change of its value.** -/
theorem exists_fit?_of_isKept (h : IsKept d.toRat) : ∃ e, d.fit? = some e ∧ e.toRat = d.toRat := by
  have hdvd := pow_cut_dvd h
  have hsome : d.fit?.isSome := by
    by_cases hzero : d.coeff = 0
    · rw [fit?, if_pos hzero]
      rfl
    · obtain ⟨w, ⟨-, -, hlead⟩, hvalue⟩ := h
      have habs : |d.toRat| = |w.toRat| := by rw [hvalue]
      exact fit?_isSome_of_kept_lt ((leadingExponent_le_of_abs_le hzero habs.le).trans hlead)
        (kept_lt_of_dvd hdvd)
  obtain ⟨e, he⟩ := Option.isSome_iff_exists.mp hsome
  refine ⟨e, he, ?_⟩
  have hcoeff : (d.coeff : ℚ) = d.kept * 10 ^ d.cut := by exact_mod_cast (kept_mul_of_dvd hdvd).symm
  rw [toRat_of_fit? he, toRat, hcoeff, add_comm, zpow_add₀ (by norm_num), zpow_natCast, mul_assoc]

/-- Nothing but a narrow number comes out of fitting. -/
theorem isNarrow_of_fit? (h : d.fit? = some e) : e.IsNarrow := by
  obtain ⟨hcoeff, hlead⟩ := coeff_lt_of_fit? h
  refine ⟨hcoeff, ?_, hlead⟩
  rcases fit?_cases h with ⟨-, rfl⟩ | ⟨-, -, hcases⟩
  · have htiny : tinyExponent ≤ maxExponent := by decide
    exact le_min (le_max_right _ _) htiny
  · rcases hcases with ⟨hcut, -, rfl⟩ | ⟨-, -, rfl⟩ | ⟨-, -, rfl⟩
    · -- nothing is cut off, so the exponent is not below the smallest one
      unfold cut at hcut
      omega
    · show _ ≤ d.exp + d.cut
      unfold cut
      omega
    · show _ ≤ d.exp + d.cut + 1
      unfold cut
      omega

/-- **Fitting leaves exactly the numbers as they are that are kept.** -/
theorem toRat_fit?_iff (h : d.fit? = some e) : e.toRat = d.toRat ↔ IsKept d.toRat := by
  constructor
  · intro hvalue
    exact ⟨e, isNarrow_of_fit? h, hvalue⟩
  · intro hkept
    obtain ⟨e', he', hvalue⟩ := exists_fit?_of_isKept hkept
    rw [h] at he'
    cases he'
    exact hvalue

/-! ## Exact results -/

/-- A coefficient counted in smaller units has the same value. -/
theorem scaled_mul {k : ℤ} (hk : k ≤ d.exp) : (d.scaled k : ℚ) * 10 ^ k = d.toRat := by
  rw [toRat, zpow_eq_pow_mul_zpow hk, ← mul_assoc, ← mul_assoc]
  congr 1
  have hc : (((d.coeff : ℤ) * Int.pow 10 (d.exp - k).toNat : ℤ) : ℚ)
      = d.coeff * 10 ^ (d.exp - k).toNat := by
    show (((d.coeff : ℤ) * 10 ^ (d.exp - k).toNat : ℤ) : ℚ) = _
    push_cast
    rfl
  unfold scaled
  dsimp only
  split
  · rw [Int.cast_neg, hc, neg_one_mul, neg_mul]
  · rw [hc, one_mul]

theorem toRat_signed {neg : Bool} {s : ℤ} (h : s ≠ 0 → neg = decide (s < 0)) (k : ℤ) :
    toRat ⟨neg, s.natAbs, k⟩ = s * 10 ^ k := by
  rw [toRat, ← mul_assoc]
  congr 1
  by_cases hzero : s = 0
  · simp [hzero]
  · rw [h hzero, Nat.cast_natAbs]
    rcases lt_or_gt_of_ne hzero with hneg | hpos
    · simp [hneg, abs_of_neg hneg]
    · simp [hpos.le, abs_of_pos hpos]

theorem exists_add? (a b : Decimal) :
    ∃ x : Decimal, a.add? b = x.fit? ∧ x.toRat = a.toRat + b.toRat := by
  refine ⟨_, rfl, ?_⟩
  rw [toRat_signed fun hs => if_neg hs, Int.cast_add, add_mul, scaled_mul (min_le_left _ _),
    scaled_mul (min_le_right _ _)]

theorem exists_sub? (a b : Decimal) :
    ∃ x : Decimal, a.sub? b = x.fit? ∧ x.toRat = a.toRat - b.toRat := by
  obtain ⟨x, hx, hvalue⟩ := exists_add? a b.opposite
  exact ⟨x, hx, by rw [hvalue, toRat_opposite, sub_eq_add_neg]⟩

theorem exists_mul? (a b : Decimal) :
    ∃ x : Decimal, a.mul? b = x.fit? ∧ x.toRat = a.toRat * b.toRat := by
  refine ⟨_, rfl, ?_⟩
  unfold toRat
  dsimp only
  rw [zpow_add₀ (by norm_num)]
  cases a.neg <;> cases b.neg <;> push_cast <;> simp <;> ring

theorem exists_neg? (d : Decimal) : ∃ x : Decimal, d.neg? = x.fit? ∧ x.toRat = -d.toRat := by
  refine ⟨_, rfl, ?_⟩
  unfold toRat
  by_cases hzero : d.coeff = 0
  · simp [hzero]
  · cases d.neg <;> simp [hzero]

/-! ## Exact quotients -/

theorem dropZeros_mul (limit c : ℕ) (k : ℤ) :
    ((dropZeros limit c k).1 : ℚ) * 10 ^ (dropZeros limit c k).2 = c * 10 ^ k := by
  induction limit generalizing c k with
  | zero => rfl
  | succ limit ih =>
    rw [dropZeros]
    split
    · next hzero =>
      have hc : (c : ℚ) = (c / 10 : ℕ) * 10 := by
        exact_mod_cast (Nat.div_mul_cancel (Nat.dvd_of_mod_eq_zero hzero)).symm
      rw [ih, hc, zpow_add_one₀ (by norm_num)]
      ring
    · rfl

/-- How many places the dividend is moved, so that the quotient has one digit more than are kept. -/
def shift (a b : Decimal) : ℤ :=
  digitCount b.coeff - digitCount a.coeff + precision + 1

/-- The dividend in units of the divisor's. -/
def dividend (a b : Decimal) : ℕ :=
  a.coeff * 10 ^ (shift a b).toNat

/-- The divisor in units of the dividend's. -/
def divisor (a b : Decimal) : ℕ :=
  b.coeff * 10 ^ (-shift a b).toNat

theorem divisor_pos (hb : b.coeff ≠ 0) : 0 < divisor a b :=
  Nat.mul_pos (Nat.pos_of_ne_zero hb) (Nat.pow_pos (by decide))

theorem dividend_div_divisor (a b : Decimal) :
    (dividend a b / divisor a b : ℚ) = a.coeff / b.coeff * 10 ^ shift a b := by
  have hpower : (10 : ℚ) ^ shift a b = 10 ^ (shift a b).toNat / 10 ^ (-shift a b).toNat :=
    eq_div_of_mul_eq (pow_ne_zero _ (by norm_num)) (zpow_mul_pow_toNat (by norm_num) _)
  rw [dividend, divisor, hpower]
  push_cast
  exact mul_div_mul_comm _ _ _ _

theorem abs_quotient (a b : Decimal) :
    |a.toRat / b.toRat| = dividend a b / divisor a b * 10 ^ (a.exp - b.exp - shift a b) := by
  rw [dividend_div_divisor, abs_div, abs_toRat, abs_toRat, mul_assoc, ← zpow_add₀ (by norm_num),
    mul_div_mul_comm, ← zpow_sub₀ (by norm_num)]
  congr 2
  omega

theorem toRat_quotient {c : ℕ} {k : ℤ} (h : (c * 10 ^ k : ℚ) = |a.toRat / b.toRat|) :
    toRat ⟨a.neg ^^ b.neg, c, k⟩ = a.toRat / b.toRat := by
  rw [toRat, h, abs_div, abs_toRat, abs_toRat]
  unfold toRat
  cases a.neg <;> cases b.neg <;> simp [neg_div, div_neg]

/-- One digit more than are kept stands in the quotient. -/
theorem pow_precision_lt (ha : a.coeff ≠ 0) (hb : b.coeff ≠ 0) :
    (10 : ℚ) ^ precision < dividend a b / divisor a b := by
  have hnum : ((10 ^ (digitCount a.coeff - 1) : ℕ) : ℚ) ≤ a.coeff := by
    exact_mod_cast pow_digitCount_le ha
  have hden : (b.coeff : ℚ) < ((10 ^ digitCount b.coeff : ℕ) : ℚ) := by
    exact_mod_cast lt_pow_digitCount b.coeff
  have hpos : (0 : ℚ) < b.coeff := by exact_mod_cast Nat.pos_of_ne_zero hb
  have hcount := digitCount_pos a.coeff
  push_cast at hnum hden
  have hfirst : (10 : ℚ) ^ (digitCount a.coeff - 1) / 10 ^ digitCount b.coeff
      < a.coeff / b.coeff := div_lt_div₀' hnum hden (by positivity) hpos
  rw [dividend_div_divisor]
  calc (10 : ℚ) ^ precision
      = 10 ^ (digitCount a.coeff - 1) / 10 ^ digitCount b.coeff * 10 ^ shift a b := by
        rw [← zpow_natCast, ← zpow_natCast, ← zpow_natCast, ← zpow_sub₀ (by norm_num),
          ← zpow_add₀ (by norm_num)]
        congr 1
        unfold shift
        omega
    _ < a.coeff / b.coeff * 10 ^ shift a b := by gcongr

/-- A quotient that is kept is computed without a remainder. -/
theorem divisor_dvd_dividend (ha : a.coeff ≠ 0) (hb : b.coeff ≠ 0)
    (h : IsKept (a.toRat / b.toRat)) : divisor a b ∣ dividend a b := by
  obtain ⟨w, ⟨hcoeff, -, -⟩, hvalue⟩ := h
  have hden : (divisor a b : ℚ) ≠ 0 := by exact_mod_cast (divisor_pos hb).ne'
  have hquotient : (dividend a b / divisor a b : ℚ)
      = w.coeff * 10 ^ (w.exp - (a.exp - b.exp - shift a b)) := by
    have habs := abs_quotient a b
    rw [← hvalue, abs_toRat] at habs
    rw [zpow_sub₀ (by norm_num), ← mul_div_assoc, habs, mul_div_cancel_right₀]
    exact zpow_ne_zero _ (by norm_num)
  generalize w.exp - (a.exp - b.exp - shift a b) = j at hquotient
  have hlarge := pow_precision_lt ha hb
  rw [hquotient] at hlarge
  -- with few digits only zeros behind them make a number so large
  have hj : 0 ≤ j := by
    by_contra hneg
    have hsmall : (10 : ℚ) ^ j ≤ 1 := zpow_le_one_of_nonpos₀ (by norm_num) (by omega)
    have hfew : (w.coeff : ℚ) < 10 ^ precision := by exact_mod_cast hcoeff
    nlinarith [Nat.cast_nonneg (α := ℚ) w.coeff]
  rw [← Int.toNat_of_nonneg hj, zpow_natCast, div_eq_iff hden] at hquotient
  exact Dvd.intro_left _ (by exact_mod_cast hquotient.symm)

/-- **A quotient that is kept is computed exactly.** -/
theorem exists_div? (hb : b.coeff ≠ 0) (h : IsKept (a.toRat / b.toRat)) :
    ∃ x : Decimal, a.div? b = x.fit? ∧ x.toRat = a.toRat / b.toRat := by
  by_cases ha : a.coeff = 0
  · -- a zero is not divided at all
    refine ⟨⟨a.neg ^^ b.neg, 0, a.exp - b.exp⟩, ?_, ?_⟩
    · rw [div?, if_pos ha]
    · rw [toRat_of_coeff_eq_zero rfl, toRat_of_coeff_eq_zero ha, zero_div]
  · have hdvd := divisor_dvd_dividend ha hb h
    have hden : (divisor a b : ℚ) ≠ 0 := by exact_mod_cast (divisor_pos hb).ne'
    let q := dividend a b / divisor a b
    let kept := dropZeros (shift a b).toNat q (a.exp - b.exp - shift a b)
    refine ⟨⟨a.neg ^^ b.neg, kept.1, kept.2⟩, ?_, toRat_quotient ?_⟩
    · have hexact : dividend a b % divisor a b = 0 := Nat.mod_eq_zero_of_dvd hdvd
      rw [div?, if_neg ha]
      exact if_pos hexact
    · rw [dropZeros_mul, abs_quotient, Nat.cast_div hdvd hden]

end Decimal
end Tariff

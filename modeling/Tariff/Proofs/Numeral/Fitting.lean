import Tariff.Proofs.Numeral.Rational

/-!
# Fitting to the digits that are kept

`fit?` cuts off the digits that an operation does not keep. `fit?_cases` says once what it can do: a
zero only has its exponent moved, a number that is short enough stays, and of any other number the
last digits are rounded away, with a carry where the digits before them are all nines. From that
come the bounds of a result (`coeff_lt_of_fit?`) and its value (`toRat_of_fit?`).
-/

namespace Tariff

open Numeral

namespace Numeral

theorem divHalfEven_le {num den k : ℕ} (h : num < k * den) : divHalfEven num den ≤ k := by
  have hquotient : num / den < k := Nat.div_lt_of_lt_mul (by rwa [Nat.mul_comm])
  unfold divHalfEven
  dsimp only
  split <;> omega

theorem divHalfEven_mul_eq_iff {num den : ℕ} (hden : 0 < den) :
    divHalfEven num den * den = num ↔ den ∣ num := by
  constructor
  · exact fun h => Dvd.intro_left _ h
  · rintro ⟨q, rfl⟩
    have hexact : divHalfEven (den * q) den = q := by
      unfold divHalfEven
      dsimp only
      rw [Nat.mul_mod_right, Nat.mul_div_cancel_left q hden, if_neg (by omega)]
    rw [hexact, Nat.mul_comm]

end Numeral

namespace Decimal

variable {d e : Decimal}

theorem leadingExponent_of_coeff_eq_zero (h : d.coeff = 0) : d.leadingExponent = d.exp := by
  have hcount : digitCount 0 = 1 := rfl
  rw [leadingExponent, h, hcount]
  omega

/-! ## What an operation keeps -/

/-- How many digits are cut off. -/
def cut (d : Decimal) : ℕ :=
  (max (d.exp + digitCount d.coeff - precision) tinyExponent - d.exp).toNat

/-- The digits that are left, or the power of ten that they are carried to. -/
def kept (d : Decimal) : ℕ :=
  divHalfEven d.coeff (10 ^ d.cut)

theorem kept_le (d : Decimal) : d.kept ≤ 10 ^ precision := by
  have hpower : 10 ^ digitCount d.coeff ≤ 10 ^ precision * 10 ^ d.cut := by
    rw [← Nat.pow_add]
    refine Nat.pow_le_pow_right (by decide) ?_
    unfold cut
    omega
  exact divHalfEven_le (Nat.lt_of_lt_of_le (lt_pow_digitCount d.coeff) hpower)

theorem kept_of_cut_eq_zero (h : d.cut = 0) : d.kept = d.coeff := by
  rw [kept, h]
  exact (Nat.mul_one _).symm.trans ((divHalfEven_mul_eq_iff Nat.one_pos).mpr (Nat.one_dvd _))

/-- **What fitting can do.** -/
theorem fit?_cases (h : d.fit? = some e) :
    (d.coeff = 0 ∧ e = ⟨d.neg, 0, min (max d.exp tinyExponent) maxExponent⟩)
      ∨ (d.coeff ≠ 0 ∧ d.leadingExponent ≤ maxExponent
        ∧ ((d.cut = 0 ∧ digitCount d.coeff ≤ precision ∧ e = d)
          ∨ (d.exp + d.cut ≤ topExponent ∧ d.kept < 10 ^ precision
            ∧ e = ⟨d.neg, d.kept, d.exp + d.cut⟩)
          ∨ (d.exp + d.cut + 1 ≤ topExponent ∧ d.kept = 10 ^ precision
            ∧ e = ⟨d.neg, d.kept / 10, d.exp + d.cut + 1⟩))) := by
  unfold fit? at h
  split at h
  · next hzero =>
    cases h
    exact .inl ⟨hzero, by rw [hzero]⟩
  · next hzero =>
    refine .inr ⟨hzero, ?_⟩
    dsimp only at h
    split at h
    · cases h
    · next htop =>
      have hlead : d.leadingExponent ≤ maxExponent := by
        simp only [leadingExponent, topExponent] at htop ⊢
        omega
      refine ⟨hlead, ?_⟩
      split at h
      · next hcut =>
        -- some digits are cut off: the last one that stays counts the power of ten behind them
        have hexp : max (d.exp + digitCount d.coeff - precision) tinyExponent = d.exp + d.cut := by
          unfold cut
          omega
        have hkept : divHalfEven d.coeff (Nat.pow 10
            (max (d.exp + digitCount d.coeff - precision) tinyExponent - d.exp).toNat)
            = d.kept := rfl
        have hfirst : d.exp + d.cut ≤ topExponent := by
          have htiny : tinyExponent ≤ topExponent := by decide
          omega
        rw [hkept, hexp] at h
        split at h
        · next hfits =>
          cases h
          exact .inr (.inl ⟨hfirst, hfits, rfl⟩)
        · next hcarry =>
          split at h
          · cases h
          · next hroom =>
            cases h
            have hfull : d.kept = 10 ^ precision := Nat.le_antisymm d.kept_le (Nat.not_lt.mp hcarry)
            exact .inr (.inr ⟨Int.not_lt.mp hroom, hfull, rfl⟩)
      · next hwhole =>
        cases h
        refine .inl ⟨?_, by omega, rfl⟩
        unfold cut
        omega

/-- Only a number with too large a leading digit, or with the largest one, is not fitted. -/
theorem fit?_isSome (h : d.leadingExponent < maxExponent) : d.fit?.isSome := by
  unfold fit?
  split
  · rfl
  · have htop : ¬ topExponent < d.exp + digitCount d.coeff - precision := by
      simp only [leadingExponent, topExponent] at h ⊢
      omega
    have hroom : ¬ topExponent < max (d.exp + digitCount d.coeff - precision) tinyExponent + 1 := by
      simp only [leadingExponent, topExponent, tinyExponent, maxExponent] at h ⊢
      omega
    dsimp only
    rw [if_neg htop, if_neg hroom]
    split
    · split
      · rfl
      · rfl
    · rfl

theorem leadingExponent_le_maxExponent (hcoeff : d.coeff < 10 ^ precision)
    (hexp : d.exp ≤ topExponent) : d.leadingExponent ≤ maxExponent := by
  have hcount := (digitCount_le_iff (by decide)).mpr hcoeff
  simp only [leadingExponent, topExponent] at hexp ⊢
  omega

/-- **An operation keeps few digits**, and none of its results is too large. -/
theorem coeff_lt_of_fit? (h : d.fit? = some e) :
    e.coeff < 10 ^ precision ∧ e.leadingExponent ≤ maxExponent := by
  rcases fit?_cases h with ⟨hzero, rfl⟩ | ⟨-, hlead, hcases⟩
  · refine ⟨Nat.pow_pos (by decide), ?_⟩
    have hlead : (⟨d.neg, 0, min (max d.exp tinyExponent) maxExponent⟩ : Decimal).leadingExponent
        = min (max d.exp tinyExponent) maxExponent := leadingExponent_of_coeff_eq_zero rfl
    exact hlead.trans_le (min_le_right _ _)
  · rcases hcases with ⟨-, hshort, rfl⟩ | ⟨hexp, hfits, rfl⟩ | ⟨hexp, hfull, rfl⟩
    · exact ⟨(digitCount_le_iff (by decide)).mp hshort, hlead⟩
    · exact ⟨hfits, leadingExponent_le_maxExponent hfits hexp⟩
    · have hfits : d.kept / 10 < 10 ^ precision := by
        rw [hfull]
        decide
      exact ⟨hfits, leadingExponent_le_maxExponent hfits hexp⟩

/-- **The value of a result** is that of its digits; a carry moves into the exponent. -/
theorem toRat_of_fit? (h : d.fit? = some e) :
    e.toRat = (if d.neg then -1 else 1) * (d.kept * 10 ^ (d.exp + d.cut)) := by
  rcases fit?_cases h with ⟨hzero, rfl⟩ | ⟨-, -, hcases⟩
  · have hnone : d.kept = 0 := by simp [kept, hzero, divHalfEven]
    rw [toRat_of_coeff_eq_zero rfl, hnone]
    simp
  · rcases hcases with ⟨hcut, -, rfl⟩ | ⟨-, -, rfl⟩ | ⟨-, hfull, rfl⟩
    · rw [toRat, kept_of_cut_eq_zero hcut, hcut]
      simp
    · rfl
    · have hcarry : d.kept = d.kept / 10 * 10 := by
        rw [hfull]
        decide
      show _ * (((d.kept / 10 : ℕ) : ℚ) * 10 ^ (d.exp + d.cut + 1)) = _
      rw [zpow_add_one₀ (by norm_num), mul_comm ((10 : ℚ) ^ _) 10,
        ← mul_assoc ((d.kept / 10 : ℕ) : ℚ)]
      conv_rhs => rw [hcarry]
      push_cast
      rfl

/-- A whole number that is short enough stays as it is. -/
theorem fit?_whole {m : ℕ} (neg : Bool) (hm : m < 10 ^ precision) :
    fit? ⟨neg, m, 0⟩ = some ⟨neg, m, 0⟩ := by
  unfold fit?
  split
  · rfl
  · have hcount : digitCount m ≤ precision := (digitCount_le_iff (by decide)).mpr hm
    have htiny : tinyExponent ≤ 0 := by decide
    have hzero : 0 ≤ topExponent := by decide
    have htop : ¬ topExponent < 0 + (digitCount m : Int) - precision := by omega
    have hexp : ¬ (0 : Int) < max (0 + (digitCount m : Int) - precision) tinyExponent := by omega
    dsimp only
    rw [if_neg htop, if_neg hexp]

theorem add?_whole (m n : ℕ) (h : m + n < 10 ^ precision) :
    add? ⟨false, m, 0⟩ ⟨false, n, 0⟩ = some ⟨false, m + n, 0⟩ := by
  have hsum : add? ⟨false, m, 0⟩ ⟨false, n, 0⟩ = fit? ⟨false, m + n, 0⟩ := by
    have hscaled (k : ℕ) : (⟨false, k, 0⟩ : Decimal).scaled (min 0 0) = k := by
      simp [scaled, Int.pow]
    have hsign : (if (m : Int) + n = 0 then false && false else decide ((m : Int) + n < 0))
        = false := by
      split
      · rfl
      · exact decide_eq_false (by omega)
    have habs : ((m : Int) + n).natAbs = m + n := by omega
    unfold add?
    dsimp only
    rw [hscaled, hscaled, hsign, habs]
    rfl
  rw [hsum, fit?_whole false h]

end Decimal

end Tariff

import Mathlib.Algebra.Order.Field.Power
import Mathlib.Data.Rat.Floor
import Mathlib.Data.Sign.Basic
import Mathlib.Tactic.FieldSimp
import Mathlib.Tactic.Linarith
import Mathlib.Tactic.NormNum
import Mathlib.Tactic.Positivity
import Tariff.Proofs.Numeral.Digits
import Tariff.Numeral.Decimal

/-!
# Decimals as rational numbers

The value of a decimal is an exact rational number (`Decimal.toRat`), and its leading exponent says
between which powers of ten that lies (`Decimal.pow_leadingExponent_le`, `Decimal.abs_toRat_lt`).
Rounding to an integer by the digits is rounding of the exact value, with halves away from zero
(`Decimal.roundHalfAway_eq`).
-/

namespace Tariff

namespace Numeral

/-! ## Rounding of rational numbers -/

/-- The nearest integer; of two that are equally near, the one further from zero. -/
def nearestAway (q : ℚ) : ℤ :=
  SignType.sign q * ⌊|q| + 1 / 2⌋

theorem floor_half : ⌊(1 / 2 : ℚ)⌋ = 0 := by
  rw [Int.floor_eq_zero_iff]
  constructor <;> norm_num

theorem nearestAway_zero : nearestAway 0 = 0 := by
  simp [nearestAway]

theorem nearestAway_of_nonneg {q : ℚ} (h : 0 ≤ q) : nearestAway q = ⌊q + 1 / 2⌋ := by
  rcases h.eq_or_lt with rfl | hpos
  · rw [nearestAway_zero, zero_add, floor_half]
  · rw [nearestAway, sign_pos hpos, abs_of_pos hpos]
    simp

/-- **Rounding is odd.** -/
theorem nearestAway_neg (q : ℚ) : nearestAway (-q) = -nearestAway q := by
  rw [nearestAway, nearestAway, Left.sign_neg, abs_neg]
  simp

theorem nearestAway_nonneg {q : ℚ} (h : 0 ≤ q) : 0 ≤ nearestAway q := by
  rw [nearestAway_of_nonneg h, Int.floor_nonneg]
  linarith

/-- **Rounding is monotone.** -/
theorem nearestAway_mono {p q : ℚ} (h : p ≤ q) : nearestAway p ≤ nearestAway q := by
  have hup : ∀ {a b : ℚ}, 0 ≤ a → a ≤ b → nearestAway a ≤ nearestAway b := by
    intro a b ha hab
    rw [nearestAway_of_nonneg ha, nearestAway_of_nonneg (ha.trans hab)]
    exact Int.floor_le_floor (by linarith)
  rcases le_total 0 p with hp | hp
  · exact hup hp h
  · rcases le_total 0 q with hq | hq
    · have hopposite := nearestAway_nonneg (neg_nonneg.mpr hp)
      rw [nearestAway_neg] at hopposite
      exact (Int.neg_nonneg.mp hopposite).trans (nearestAway_nonneg hq)
    · -- both are mirrored, which turns them round
      have hmirrored := hup (neg_nonneg.mpr hq) (neg_le_neg h)
      rw [nearestAway_neg, nearestAway_neg] at hmirrored
      exact neg_le_neg_iff.mp hmirrored

theorem abs_nearestAway (q : ℚ) : |nearestAway q| = ⌊|q| + 1 / 2⌋ := by
  rw [← nearestAway_of_nonneg (abs_nonneg q)]
  rcases le_total 0 q with hq | hq
  · rw [abs_of_nonneg hq, abs_of_nonneg (nearestAway_nonneg hq)]
  · rw [abs_of_nonpos hq, nearestAway_neg, abs_of_nonpos]
    have hopposite := nearestAway_nonneg (neg_nonneg.mpr hq)
    rw [nearestAway_neg] at hopposite
    exact Int.neg_nonneg.mp hopposite

theorem nearestAway_intCast (n : ℤ) : nearestAway n = n := by
  have hnat : ∀ m : ℤ, 0 ≤ m → nearestAway m = m := by
    intro m hm
    rw [nearestAway_of_nonneg (by exact_mod_cast hm), Int.floor_intCast_add, floor_half, add_zero]
  rcases le_total 0 n with hn | hn
  · exact hnat n hn
  · have hopposite := hnat (-n) (neg_nonneg.mpr hn)
    rw [Int.cast_neg, nearestAway_neg] at hopposite
    exact neg_inj.mp hopposite

/-- An integer is not passed by what is more than half away from it. -/
theorem natAbs_nearestAway_le {q : ℚ} {n : ℕ} (h : |q| < n + 1 / 2) :
    (nearestAway q).natAbs ≤ n := by
  have hfloor : ⌊|q| + 1 / 2⌋ < (n : ℤ) + 1 := by
    rw [Int.floor_lt]
    push_cast
    linarith
  have habs := abs_nearestAway q
  rw [Int.abs_eq_natAbs] at habs
  omega

theorem le_natAbs_nearestAway {q : ℚ} {n : ℕ} (h : (n : ℚ) ≤ |q|) : n ≤ (nearestAway q).natAbs := by
  have hfloor : (n : ℤ) ≤ ⌊|q| + 1 / 2⌋ := by
    rw [Int.le_floor]
    push_cast
    linarith
  have habs := abs_nearestAway q
  rw [Int.abs_eq_natAbs] at habs
  omega

theorem divHalfUp_eq_floor (num : ℕ) {den : ℕ} (hden : 0 < den) :
    (divHalfUp num den : ℤ) = ⌊(num / den : ℚ) + 1 / 2⌋ := by
  have hsum : (num / den : ℚ) + 1 / 2 = ((2 * num + den : ℕ) : ℚ) / ((2 * den : ℕ) : ℚ) := by
    have hne : (den : ℚ) ≠ 0 := by exact_mod_cast hden.ne'
    push_cast
    field_simp
  rw [hsum, Rat.floor_natCast_div_natCast, divHalfUp, Int.natCast_ediv]

end Numeral

open Numeral

namespace Decimal

/-! ## The value of a decimal -/

/-- The value of a decimal. -/
def toRat (d : Decimal) : ℚ :=
  (if d.neg then -1 else 1) * (d.coeff * 10 ^ d.exp)

/-- The decimal with the other sign. -/
def opposite (d : Decimal) : Decimal :=
  { d with neg := !d.neg }

theorem toRat_opposite (d : Decimal) : d.opposite.toRat = -d.toRat := by
  unfold toRat opposite
  cases d.neg <;> simp

theorem abs_toRat (d : Decimal) : |d.toRat| = d.coeff * 10 ^ d.exp := by
  have hvalue : (0 : ℚ) ≤ d.coeff * 10 ^ d.exp := by positivity
  unfold toRat
  split
  · rw [neg_one_mul, abs_neg, abs_of_nonneg hvalue]
  · rw [one_mul, abs_of_nonneg hvalue]

theorem toRat_of_coeff_eq_zero {d : Decimal} (h : d.coeff = 0) : d.toRat = 0 := by
  simp [toRat, h]

theorem pow_leadingExponent_le {d : Decimal} (h : d.coeff ≠ 0) :
    (10 : ℚ) ^ d.leadingExponent ≤ |d.toRat| := by
  have hcount := digitCount_pos d.coeff
  have hlead : d.leadingExponent = ((digitCount d.coeff - 1 : ℕ) : ℤ) + d.exp := by
    simp only [leadingExponent]
    omega
  rw [abs_toRat, hlead, zpow_add₀ (by norm_num), zpow_natCast]
  have hdigits : ((10 ^ (digitCount d.coeff - 1) : ℕ) : ℚ) ≤ d.coeff := by
    exact_mod_cast pow_digitCount_le h
  push_cast at hdigits
  gcongr

theorem abs_toRat_lt (d : Decimal) : |d.toRat| < 10 ^ (d.leadingExponent + 1) := by
  have hlead : d.leadingExponent + 1 = (digitCount d.coeff : ℤ) + d.exp := by
    simp only [leadingExponent]
    omega
  rw [abs_toRat, hlead, zpow_add₀ (by norm_num), zpow_natCast]
  have hdigits : (d.coeff : ℚ) < ((10 ^ digitCount d.coeff : ℕ) : ℚ) := by
    exact_mod_cast lt_pow_digitCount d.coeff
  push_cast at hdigits
  gcongr

/-- A decimal without a fraction is a natural number with a sign. -/
theorem toRat_of_exp_nonneg {d : Decimal} (h : 0 ≤ d.exp) :
    d.toRat = (if d.neg then -1 else 1) * ((d.coeff * 10 ^ d.exp.toNat : ℕ) : ℚ) := by
  have hexp : (10 : ℚ) ^ d.exp = 10 ^ d.exp.toNat := by
    conv_lhs => rw [← Int.toNat_of_nonneg h]
    exact zpow_natCast ..
  rw [toRat, hexp]
  push_cast
  rfl

theorem abs_toRat_of_exp_neg {d : Decimal} (h : d.exp < 0) :
    |d.toRat| = d.coeff / (10 ^ (-d.exp).toNat : ℕ) := by
  have hexp : (10 : ℚ) ^ d.exp = (10 ^ (-d.exp).toNat)⁻¹ := by
    have hneg : d.exp = -((-d.exp).toNat : ℤ) := by omega
    conv_lhs => rw [hneg]
    rw [zpow_neg, zpow_natCast]
  rw [abs_toRat, hexp]
  push_cast
  rw [div_eq_mul_inv]

/-! ## Rounding to integers -/

/-- The nearest integer without its sign. -/
def roundedMagnitude (d : Decimal) : ℕ :=
  if d.coeff = 0 then 0
  else if 0 ≤ d.exp then d.coeff * Nat.pow 10 d.exp.toNat
  else if d.leadingExponent < -1 then 0
  else divHalfUp d.coeff (Nat.pow 10 (-d.exp).toNat)

theorem roundHalfAway_eq_magnitude (d : Decimal) :
    d.roundHalfAway = if d.neg then -(d.roundedMagnitude : ℤ) else d.roundedMagnitude := rfl

theorem roundedMagnitude_eq_floor (d : Decimal) :
    (d.roundedMagnitude : ℤ) = ⌊|d.toRat| + 1 / 2⌋ := by
  unfold roundedMagnitude
  split
  · next hzero => rw [toRat_of_coeff_eq_zero hzero, abs_zero, zero_add, floor_half, Nat.cast_zero]
  · split
    · next hexp =>
      have habs : |d.toRat| = ((d.coeff * 10 ^ d.exp.toNat : ℕ) : ℤ) := by
        have hvalue : (0 : ℚ) ≤ ((d.coeff * 10 ^ d.exp.toNat : ℕ) : ℚ) := Nat.cast_nonneg _
        rw [toRat_of_exp_nonneg hexp, abs_mul, abs_of_nonneg hvalue, Int.cast_natCast]
        split <;> simp
      rw [habs, Int.floor_intCast_add, floor_half, add_zero]
      rfl
    · next hexp =>
      split
      · next hsmall =>
        -- not even the first digit behind the point is there
        have hlt : |d.toRat| < 10 ^ (-1 : ℤ) :=
          (abs_toRat_lt d).trans_le (zpow_le_zpow_right₀ (by norm_num) (by omega))
        have hfloor : ⌊|d.toRat| + 1 / 2⌋ = 0 := by
          rw [Int.floor_eq_zero_iff]
          have hpos := abs_nonneg d.toRat
          norm_num at hlt
          constructor <;> linarith
        rw [hfloor, Nat.cast_zero]
      · have hden : 0 < 10 ^ (-d.exp).toNat := Nat.pow_pos (by decide)
        rw [abs_toRat_of_exp_neg (Int.not_le.mp hexp)]
        exact divHalfUp_eq_floor d.coeff hden

/-- **Rounding by the digits is rounding of the value.** -/
theorem roundHalfAway_eq (d : Decimal) : d.roundHalfAway = nearestAway d.toRat := by
  have hvalue : (0 : ℚ) ≤ d.coeff * 10 ^ d.exp := by positivity
  have hmagnitude : (d.roundedMagnitude : ℤ) = nearestAway (d.coeff * 10 ^ d.exp) := by
    rw [roundedMagnitude_eq_floor, abs_toRat, nearestAway_of_nonneg hvalue]
  rw [roundHalfAway_eq_magnitude, hmagnitude, toRat]
  split
  · rw [neg_one_mul, nearestAway_neg]
  · rw [one_mul]

end Decimal

end Tariff

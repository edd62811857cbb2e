import Tariff.Numeral.Binary64Text
import Tariff.Proofs.Numeral.WholeBinary64

/-!
# How many digits are shortest

The digits that a binary64 number is written with are looked for on grids of one digit, two digits
and so on. The number is below the power of ten that the grids start from
(`Binary64.lt_decimalPlaces`), so a grid of some digits has no more digits to offer, and the last
grid has 17 (`Binary64.shortest_le`).
-/

namespace Tariff.Binary64

open Numeral Decimal

theorem lt_decimalPlaces (num : ℕ) {den : ℕ} (hden : den ≠ 0) :
    (num : ℚ) < den * 10 ^ decimalPlaces num den := by
  have hnum : (num : ℚ) < 10 ^ digitCount num := by exact_mod_cast lt_pow_digitCount num
  have hlow : (10 : ℚ) ^ (digitCount den - 1) ≤ den := by exact_mod_cast pow_digitCount_le hden
  have hcount := digitCount_pos den
  unfold decimalPlaces
  generalize hk : (digitCount num : ℤ) - digitCount den = k
  dsimp only
  split
  · calc (num : ℚ) < 10 ^ digitCount num := hnum
      _ = 10 ^ (digitCount den - 1) * 10 ^ (k + 1) := by
        rw [← zpow_natCast, ← zpow_natCast, ← zpow_add₀ (by norm_num)]
        congr 1
        omega
      _ ≤ den * 10 ^ (k + 1) := mul_le_mul_of_nonneg_right hlow (by positivity)
  · next hless =>
    have hless : num * 10 ^ (-k).toNat < den * 10 ^ k.toNat := Nat.not_le.mp hless
    have hscaled : (num : ℚ) * 10 ^ (-k).toNat < den * 10 ^ k * 10 ^ (-k).toNat := by
      rw [mul_assoc, zpow_mul_pow_toNat (by norm_num)]
      exact_mod_cast hless
    exact lt_of_mul_lt_mul_right hscaled (by positivity)

variable {mant : ℕ} {exp places : ℤ}

/-- On a grid of some digits a number has no more digits in front of the point. -/
theorem grid_lt {num den : ℕ} (h : (num : ℚ) < den * 10 ^ places) (count : ℕ) :
    num * 10 ^ (-(places - count)).toNat / (den * 10 ^ (places - count).toNat) < 10 ^ count := by
  have hplaces : (num : ℚ) < den * ((10 : ℕ) : ℚ) ^ (places - count + count) := by
    rw [Int.sub_add_cancel]
    exact_mod_cast h
  refine Nat.div_lt_of_lt_mul ?_
  rw [Nat.mul_comm _ (10 ^ count)]
  exact lt_pow_inUnits (by decide) hplaces

theorem shortestFrom_le {limit : ℕ} (hmant : mant ≤ 10 ^ limit)
    (hplaces : ((mant * 2 ^ exp.toNat : ℕ) : ℚ) < (2 ^ (-exp).toNat : ℕ) * 10 ^ places)
    {count fuel : ℕ} (hfuel : count + fuel ≤ limit + 1) :
    (shortestFrom mant exp places count fuel).1 ≤ 10 ^ limit := by
  induction fuel generalizing count with
  | zero => exact hmant
  | succ fuel ih =>
    let k := places - count
    let num := mant * 2 ^ exp.toNat * 10 ^ (-k).toNat
    let den := 2 ^ (-exp).toNat * 10 ^ k.toNat
    have hgrid : num / den < 10 ^ count := grid_lt hplaces count
    have hlimit : 10 ^ count ≤ 10 ^ limit := Nat.pow_le_pow_right (by decide) (by omega)
    have hrounded := (divHalfEven_bounds num den).2
    show Prod.fst (if readsBack mant exp (num / den) k && readsBack mant exp (num / den + 1) k then
        (divHalfEven num den, k)
      else if readsBack mant exp (num / den) k then (num / den, k)
      else if readsBack mant exp (num / den + 1) k then (num / den + 1, k)
      else shortestFrom mant exp places (count + 1) fuel) ≤ _
    split
    · show divHalfEven num den ≤ _
      omega
    · split
      · show num / den ≤ _
        omega
      · split
        · show num / den + 1 ≤ _
          omega
        · exact ih (by omega)

theorem dropZeros_le (limit c : ℕ) (k : ℤ) : (Decimal.dropZeros limit c k).1 ≤ c := by
  induction limit generalizing c k with
  | zero => exact Nat.le_refl c
  | succ limit ih =>
    rw [Decimal.dropZeros]
    split
    · exact (ih (c / 10) (k + 1)).trans (Nat.div_le_self c 10)
    · exact Nat.le_refl c

/-- **A number of 53 bits is written with at most 17 digits**, or as the power of ten behind them.
-/
theorem shortest_le (hmant : mant < 2 ^ 53) (exp : ℤ) : (shortest mant exp).1 ≤ 10 ^ 17 := by
  have hplaces := lt_decimalPlaces (mant * 2 ^ exp.toNat) (Nat.two_pow_pos (-exp).toNat).ne'
  have hfrom := shortestFrom_le (hmant.le.trans (by decide)) hplaces (Nat.le_refl (1 + 17))
  exact (dropZeros_le 17 _ _).trans hfrom

end Tariff.Binary64

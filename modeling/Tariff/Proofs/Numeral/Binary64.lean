import Tariff.Numeral.Binary64
import Tariff.Proofs.Numeral.Digits

/-!
# The range of binary64 numbers

A quotient is rounded to an infinity exactly from the middle between the largest binary64 number and
the power of two behind it (`Binary64.isFinite_nearest_iff`), and so is a decimal
(`Binary64.isFinite_ofDecimal_iff`).
-/

namespace Tariff

open Numeral

namespace Binary64

/-- The exponent of the bit behind the last one of the largest number. -/
def middleBit : Nat := 970

/-- The middle between the largest binary64 number and the power of two behind it. -/
def bound : Nat := (2 ^ 54 - 1) * 2 ^ middleBit

theorem bound_pos : 0 < bound :=
  Nat.mul_pos (by decide) (Nat.two_pow_pos middleBit)

theorem bound_le {k : Nat} (h : 309 ≤ k) : bound ≤ 10 ^ k :=
  Nat.le_trans (by decide +kernel) (Nat.pow_le_pow_right (by decide) h)

variable {num den : Nat}

theorem inUnits_natCast (t : Nat) : inUnits num den t = (num, den * 2 ^ t) := by
  simp [inUnits]

/-- Where the last bit of a quotient stands that is not small. -/
theorem le_lastBit_iff (hnum : num ≠ 0) (hden : den ≠ 0) (t : Nat) :
    (t : Int) ≤ lastBit num den ↔ 2 ^ 52 * (2 ^ t * den) ≤ num := by
  have hnumLow := Nat.log2_self_le hnum
  have hnumHigh : num < 2 ^ (num.log2 + 1) := Nat.lt_log2_self
  have hdenLow := Nat.log2_self_le hden
  have hdenHigh : den < 2 ^ (den.log2 + 1) := Nat.lt_log2_self
  unfold lastBit
  dsimp only
  generalize he : (num.log2 : Int) - den.log2 - 52 = e
  rw [← Nat.mul_assoc, ← Nat.pow_add]
  -- `e` is the place up to one; only where it is `t` itself do the coefficients decide
  rcases Int.lt_trichotomy e t with hlt | rfl | hgt
  · refine iff_of_false ?_ (Nat.not_le.mpr ?_)
    · simp only [minExponent]
      split <;> omega
    · calc num < 2 ^ (num.log2 + 1) := hnumHigh
        _ ≤ 2 ^ (52 + t + den.log2) := Nat.pow_le_pow_right (by decide) (by omega)
        _ = 2 ^ (52 + t) * 2 ^ den.log2 := Nat.pow_add ..
        _ ≤ 2 ^ (52 + t) * den := Nat.mul_le_mul_left _ hdenLow
  · rw [inUnits_natCast]
    have hunits : den * 2 ^ t * Nat.pow 2 52 = 2 ^ (52 + t) * den := by
      show den * 2 ^ t * 2 ^ 52 = _
      rw [Nat.mul_assoc, ← Nat.pow_add, Nat.mul_comm, Nat.add_comm]
    simp only [hunits, minExponent]
    split <;> omega
  · refine iff_of_true ?_ (Nat.le_of_lt ?_)
    · simp only [minExponent]
      split <;> omega
    · calc 2 ^ (52 + t) * den < 2 ^ (52 + t) * 2 ^ (den.log2 + 1) :=
          Nat.mul_lt_mul_of_pos_left hdenHigh (Nat.two_pow_pos _)
        _ = 2 ^ (52 + t + (den.log2 + 1)) := (Nat.pow_add ..).symm
        _ ≤ 2 ^ num.log2 := Nat.pow_le_pow_right (by decide) (by omega)
        _ ≤ num := hnumLow

theorem divHalfEven_eq_iff {n d : Nat} (hd : 0 < d) (h : n < 2 ^ 53 * d) :
    divHalfEven n d = Nat.pow 2 53 ↔ (2 ^ 54 - 1) * d ≤ 2 * n := by
  show divHalfEven n d = 2 ^ 53 ↔ _
  have hdivision : d * (n / d) + n % d = n := Nat.div_add_mod n d
  have hrest : n % d < d := Nat.mod_lt n hd
  have hquotient : n / d < 2 ^ 53 := (Nat.div_lt_iff_lt_mul hd).mpr h
  unfold divHalfEven
  dsimp only
  -- only the largest quotient is rounded up to the carry
  by_cases hq : n / d = 2 ^ 53 - 1
  · rw [hq] at hdivision ⊢
    split <;> omega
  · have hbelow : d * (n / d + 1) ≤ d * (2 ^ 53 - 1) := Nat.mul_le_mul_left d (by omega)
    rw [Nat.mul_succ] at hbelow
    split <;> omega

/-- Without the powers, which are large numbers to whoever computes them. -/
theorem isFinite_carried (neg : Bool) (carry kept : Nat) (e : Int) :
    Binary64.isFinite (
      let (n, d) := inUnits num den e
      let m := divHalfEven n d
      let (m, e) := if m = carry then (kept, e + 1) else (m, e)
      if maxExponent < e then .infinite neg else .finite neg m e) = true
      ↔ (if divHalfEven (inUnits num den e).1 (inUnits num den e).2 = carry then e + 1 else e)
        ≤ maxExponent := by
  dsimp only
  generalize divHalfEven _ _ = m
  by_cases hcarry : m = carry
  · rw [if_pos hcarry, if_pos hcarry]
    dsimp only
    split
    · next hover => exact iff_of_false nofun (Int.not_le.mpr hover)
    · next hwithin => exact iff_of_true rfl (Int.not_lt.mp hwithin)
  · rw [if_neg hcarry, if_neg hcarry]
    dsimp only
    split
    · next hover => exact iff_of_false nofun (Int.not_le.mpr hover)
    · next hwithin => exact iff_of_true rfl (Int.not_lt.mp hwithin)

/-- Only the last bit and the carry out of the rounded coefficient say whether there is an overflow.
-/
theorem isFinite_nearest_iff_lastBit (neg : Bool) (hnum : num ≠ 0) :
    (nearest neg num den).isFinite = true
      ↔ (if divHalfEven (inUnits num den (lastBit num den)).1
          (inUnits num den (lastBit num den)).2 = Nat.pow 2 53
        then lastBit num den + 1 else lastBit num den) ≤ maxExponent := by
  rw [nearest, if_neg hnum]
  exact isFinite_carried neg (Nat.pow 2 53) (Nat.pow 2 52) (lastBit num den)

/-- **Rounded to an infinity are the quotients from the middle on.** -/
theorem isFinite_nearest_iff (neg : Bool) (hden : den ≠ 0) :
    (nearest neg num den).isFinite = true ↔ num < bound * den := by
  have hunit : 0 < 2 ^ middleBit * den :=
    Nat.mul_pos (Nat.two_pow_pos middleBit) (Nat.pos_of_ne_zero hden)
  have hbound : bound * den = (2 ^ 54 - 1) * (2 ^ middleBit * den) := by rw [bound, Nat.mul_assoc]
  rw [hbound]
  by_cases hnum : num = 0
  · subst hnum
    exact iff_of_true rfl (Nat.mul_pos (by decide) hunit)
  have hdouble : 2 ^ (middleBit + 1) * den = 2 * (2 ^ middleBit * den) := by
    rw [Nat.pow_add_one', Nat.mul_assoc]
  have hfourfold : 2 ^ (middleBit + 2) * den = 4 * (2 ^ middleBit * den) := by
    rw [Nat.pow_add, Nat.mul_comm (2 ^ middleBit), Nat.mul_assoc]
  have hlow : (971 : Int) ≤ lastBit num den ↔ _ := le_lastBit_iff hnum hden (middleBit + 1)
  have hhigh : (972 : Int) ≤ lastBit num den ↔ _ := le_lastBit_iff hnum hden (middleBit + 2)
  have htop : inUnits num den 971 = _ := inUnits_natCast (middleBit + 1)
  rw [hdouble] at hlow
  rw [hfourfold] at hhigh
  rw [Nat.mul_comm den, hdouble] at htop
  rw [isFinite_nearest_iff_lastBit neg hnum, maxExponent]
  generalize lastBit num den = e at hlow hhigh
  generalize 2 ^ middleBit * den = unit at *
  -- 971 is the last place that a finite number has, so there the carry decides
  rcases Int.lt_trichotomy e 971 with hlt | rfl | hgt
  · have hbelow : num < 2 ^ 52 * (2 * unit) := Nat.not_le.mp fun h => by
      have := hlow.mpr h
      omega
    refine iff_of_true ?_ (by omega)
    split <;> omega
  · have hbelow : num < 2 ^ 53 * (2 * unit) := Nat.not_le.mp fun h => by
      have := hhigh.mpr (by omega)
      omega
    have hcarry := divHalfEven_eq_iff (by omega) hbelow
    rw [htop]
    dsimp only
    split
    · next h => exact iff_of_false (by omega) (by have := hcarry.mp h; omega)
    · next h => exact iff_of_true (by omega) (by have := mt hcarry.mpr h; omega)
  · have habove := hhigh.mp (by omega)
    refine iff_of_false ?_ (by omega)
    split <;> omega

/-! ## Decimals -/

/-- Whether the value of a decimal is nearer to zero than the middle between the largest binary64
number and the power of two behind it. -/
def InRange (d : Decimal) : Prop :=
  d.coeff * 10 ^ d.exp.toNat < bound * 10 ^ (-d.exp).toNat

/-- **Exactly the decimals in the range are rounded to a finite number.** -/
theorem isFinite_ofDecimal_iff (d : Decimal) : (ofDecimal d).isFinite = true ↔ InRange d := by
  have hpower : 0 < 10 ^ (-d.exp).toNat := Nat.pow_pos (by decide)
  unfold ofDecimal InRange
  split
  · next hzero =>
    rw [hzero, Nat.zero_mul]
    exact iff_of_true rfl (Nat.mul_pos bound_pos hpower)
  · next hcoeff =>
    have hlead : d.leadingExponent = d.exp + digitCount d.coeff - 1 := rfl
    have hcount := digitCount_pos d.coeff
    split
    · next hlarge =>
      -- the leading digit alone is beyond the middle
      refine iff_of_false nofun (Nat.not_lt.mpr ?_)
      obtain ⟨k, hk, hlong⟩ : ∃ k, digitCount d.coeff - 1 + d.exp.toNat = k + (-d.exp).toNat
          ∧ 309 ≤ k := ⟨(d.leadingExponent).toNat, by omega, by omega⟩
      calc bound * 10 ^ (-d.exp).toNat ≤ 10 ^ k * 10 ^ (-d.exp).toNat :=
            Nat.mul_le_mul_right _ (bound_le hlong)
        _ = 10 ^ (digitCount d.coeff - 1 + d.exp.toNat) := by rw [← Nat.pow_add, hk]
        _ = 10 ^ (digitCount d.coeff - 1) * 10 ^ d.exp.toNat := Nat.pow_add ..
        _ ≤ d.coeff * 10 ^ d.exp.toNat :=
            Nat.mul_le_mul_right _ (pow_digitCount_le hcoeff)
    · split
      · next hsmall =>
        -- such a decimal is below one
        refine iff_of_true rfl ?_
        calc d.coeff * 10 ^ d.exp.toNat = d.coeff := by
              rw [Int.toNat_of_nonpos (by omega), Nat.pow_zero, Nat.mul_one]
          _ < 10 ^ digitCount d.coeff := (digitCount_le_iff hcount).mp (Nat.le_refl _)
          _ ≤ 10 ^ (-d.exp).toNat := Nat.pow_le_pow_right (by decide) (by omega)
          _ ≤ bound * 10 ^ (-d.exp).toNat := Nat.le_mul_of_pos_left _ bound_pos
      · exact isFinite_nearest_iff d.neg (Nat.ne_of_gt hpower)

end Binary64

end Tariff

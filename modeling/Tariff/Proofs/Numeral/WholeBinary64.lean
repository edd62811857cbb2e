import Mathlib.Data.Nat.Log
import Tariff.Proofs.Numeral.Binary64
import Tariff.Proofs.Numeral.Exactness

/-!
# Whole numbers in binary64

A whole number that becomes a binary64 number is rounded to 53 bits, half to even (`keptBits`), and
stays whole. It does not matter with how many digits, or with which exponent, the number is written
(`Binary64.toInt?_ofDecimal`). A number of at most 53 bits stays as it is, and so does a longer one
whose other bits are zeros (`keptBits_eq_self_iff`).
-/

namespace Tariff

open Numeral

namespace Numeral

theorem divHalfEven_mul_right (num den : ℕ) {k : ℕ} (hk : 0 < k) :
    divHalfEven (num * k) (den * k) = divHalfEven num den := by
  have hdouble : 2 * (num % den * k) = 2 * (num % den) * k := (Nat.mul_assoc ..).symm
  have hlarger : den * k < 2 * (num % den) * k ↔ den < 2 * (num % den) := Nat.mul_lt_mul_right hk
  have hequal : 2 * (num % den) * k = den * k ↔ 2 * (num % den) = den := Nat.mul_left_inj hk.ne'
  unfold divHalfEven
  dsimp only
  rw [Nat.mul_div_mul_right _ _ hk, Nat.mul_mod_mul_right, hdouble]
  simp only [hlarger, hequal]

theorem divHalfEven_mul_left (k : ℕ) {den : ℕ} (hden : 0 < den) : divHalfEven (k * den) den = k :=
  Nat.eq_of_mul_eq_mul_right hden ((divHalfEven_mul_eq_iff hden).mpr (Nat.dvd_mul_left den k))

theorem divHalfEven_bounds (num den : ℕ) :
    num / den ≤ divHalfEven num den ∧ divHalfEven num den ≤ num / den + 1 := by
  unfold divHalfEven
  dsimp only
  split <;> omega

/-- A number below a power has no more digits in front of the point, in units of another power. -/
theorem lt_pow_inUnits {b num den count : ℕ} {e : ℤ} (hb : b ≠ 0)
    (h : (num : ℚ) < den * (b : ℚ) ^ (e + count)) :
    num * b ^ (-e).toNat < b ^ count * (den * b ^ e.toNat) := by
  have hbase : (b : ℚ) ≠ 0 := Nat.cast_ne_zero.mpr hb
  have hpos : (0 : ℚ) < (b : ℚ) ^ (-e).toNat := by positivity
  have hscaled : (num : ℚ) * (b : ℚ) ^ (-e).toNat
      < (b : ℚ) ^ count * (den * (b : ℚ) ^ e.toNat) := calc
    (num : ℚ) * (b : ℚ) ^ (-e).toNat < den * (b : ℚ) ^ (e + count) * (b : ℚ) ^ (-e).toNat :=
      mul_lt_mul_of_pos_right h hpos
    _ = (b : ℚ) ^ count * (den * ((b : ℚ) ^ e * (b : ℚ) ^ (-e).toNat)) := by
      rw [zpow_add₀ hbase, zpow_natCast]
      ring
    _ = (b : ℚ) ^ count * (den * (b : ℚ) ^ e.toNat) := by rw [Decimal.zpow_mul_pow_toNat hbase]
  exact_mod_cast hscaled

end Numeral

/-- A whole number rounded to the 53 bits that a binary64 number keeps, half to even. -/
def keptBits (m : ℕ) : ℕ :=
  let unit := 2 ^ (m.log2 - 52)
  divHalfEven m unit * unit

theorem keptBits_eq_self_iff {m : ℕ} : keptBits m = m ↔ 2 ^ (m.log2 - 52) ∣ m :=
  divHalfEven_mul_eq_iff (Nat.two_pow_pos _)

/-- Numbers of at most 53 bits are kept as they are, and so is the first one that has more. -/
theorem keptBits_of_le {m : ℕ} (h : m ≤ 2 ^ 53) : keptBits m = m := by
  rw [keptBits_eq_self_iff]
  rcases h.eq_or_lt with rfl | hlt
  · -- the one bit that is cut off is a zero
    have hlog : (2 ^ 53).log2 = 53 := Nat.log2_two_pow
    rw [hlog]
    decide
  · have hlog : m.log2 - 52 = 0 := by
      by_cases hzero : m = 0
      · rw [hzero]
        rfl
      · have := (Nat.log2_lt hzero).mpr hlt
        omega
    rw [hlog, Nat.pow_zero]
    exact Nat.one_dvd m

theorem keptBits_bounds {m : ℕ} (hm : m ≠ 0) : 0 < keptBits m ∧ keptBits m ≤ 2 * m := by
  let unit := 2 ^ (m.log2 - 52)
  have hunit : 0 < unit := Nat.two_pow_pos _
  have hle : unit ≤ m := calc
    unit ≤ 2 ^ m.log2 := Nat.pow_le_pow_right Nat.two_pos (Nat.sub_le ..)
    _ ≤ m := Nat.log2_self_le hm
  have hquotient : 0 < m / unit := Nat.div_pos hle hunit
  have hrounded := divHalfEven_bounds m unit
  refine ⟨Nat.mul_pos (hquotient.trans_le hrounded.1) hunit, ?_⟩
  calc divHalfEven m unit * unit ≤ (m / unit + 1) * unit := Nat.mul_le_mul_right _ hrounded.2
    _ = m / unit * unit + unit := Nat.succ_mul ..
    _ ≤ m + m := Nat.add_le_add (Nat.div_mul_le_self m unit) hle
    _ = 2 * m := (Nat.two_mul m).symm

/-- A whole number as a binary64 number keeps it. -/
def keptWhole (n : ℤ) : ℤ :=
  if n < 0 then -(keptBits n.natAbs : ℤ) else keptBits n.natAbs

theorem keptWhole_eq_self_iff {n : ℤ} :
    keptWhole n = n ↔ 2 ^ (n.natAbs.log2 - 52) ∣ n.natAbs := by
  rw [← keptBits_eq_self_iff, keptWhole]
  split <;> omega

theorem natAbs_keptWhole (n : ℤ) : (keptWhole n).natAbs = keptBits n.natAbs := by
  unfold keptWhole
  split <;> omega

theorem keptWhole_neg_iff {n : ℤ} : keptWhole n < 0 ↔ n < 0 := by
  unfold keptWhole
  split
  · next hneg =>
    have := (keptBits_bounds (Int.natAbs_ne_zero.mpr hneg.ne)).1
    omega
  · omega

namespace Binary64

variable {neg : Bool} {m den : ℕ} {e : ℤ}

/-- A binary64 number is whole if its coefficient is a multiple of the power of two that it is
divided by. -/
theorem toInt?_finite {k : ℕ} (h : m * 2 ^ e.toNat = k * 2 ^ (-e).toNat) :
    (finite neg m e).toInt? = some (if neg then -(k : ℤ) else k) := by
  have hnum : (m : ℤ) * 2 ^ e.toNat = k * ((2 ^ (-e).toNat : ℕ) : ℤ) := by exact_mod_cast h
  have hden : ((2 ^ (-e).toNat : ℕ) : ℤ) ≠ 0 := by exact_mod_cast (Nat.two_pow_pos _).ne'
  let n : ℤ := if neg then -(m * 2 ^ e.toNat) else m * 2 ^ e.toNat
  have hn : n = (if neg then -(k : ℤ) else k) * ((2 ^ (-e).toNat : ℕ) : ℤ) := by
    show (if neg then _ else _) = _
    rw [hnum]
    split
    · rw [Int.neg_mul]
    · rfl
  show (if n % ((2 ^ (-e).toNat : ℕ) : ℤ) = 0 then some (n / ((2 ^ (-e).toNat : ℕ) : ℤ)) else none)
      = _
  rw [hn, Int.mul_emod_left, if_pos rfl, Int.mul_ediv_cancel _ hden]

/-- A rounded coefficient with its exponent; a coefficient that is a carry is written with one more
in the exponent instead. -/
def carried (neg : Bool) (carry kept n : ℕ) (e : ℤ) : Binary64 :=
  let (m, e) := if n = carry then (kept, e + 1) else (n, e)
  if maxExponent < e then .infinite neg else .finite neg m e

theorem carried_cases {carry kept n : ℕ} (h : (carried neg carry kept n e).isFinite = true) :
    n ≠ carry ∧ carried neg carry kept n e = .finite neg n e
      ∨ n = carry ∧ carried neg carry kept n e = .finite neg kept (e + 1) := by
  unfold carried at h ⊢
  by_cases hcarry : n = carry
  · rw [if_pos hcarry] at h ⊢
    dsimp only at h ⊢
    split at h
    · cases h
    · next hroom => exact .inr ⟨hcarry, if_neg hroom⟩
  · rw [if_neg hcarry] at h ⊢
    dsimp only at h ⊢
    split at h
    · cases h
    · next hroom => exact .inl ⟨hcarry, if_neg hroom⟩

/-- The coefficient of a quotient, rounded to the bits that are kept. -/
def roundedMantissa (num den : ℕ) : ℕ :=
  divHalfEven (inUnits num den (lastBit num den)).1 (inUnits num den (lastBit num den)).2

/-- Without the powers, which are large numbers to whoever computes them. -/
theorem eq_carried {num : ℕ} (neg : Bool) (carry kept : ℕ) (e : ℤ) :
    (let (n, d) := inUnits num den e
      let m := divHalfEven n d
      let (m, e) := if m = carry then (kept, e + 1) else (m, e)
      if maxExponent < e then infinite neg else finite neg m e)
      = carried neg carry kept (divHalfEven (inUnits num den e).1 (inUnits num den e).2) e := rfl

theorem nearest_eq_carried {num : ℕ} (hnum : num ≠ 0) :
    nearest neg num den
      = carried neg (Nat.pow 2 53) (Nat.pow 2 52) (roundedMantissa num den) (lastBit num den) := by
  rw [nearest, if_neg hnum]
  exact eq_carried neg (Nat.pow 2 53) (Nat.pow 2 52) (lastBit num den)

theorem le_lastBit_whole_iff (hm : m ≠ 0) (hden : den ≠ 0) (t : ℕ) :
    (t : ℤ) ≤ lastBit (m * den) den ↔ 2 ^ (52 + t) ≤ m := by
  rw [le_lastBit_iff (Nat.mul_ne_zero hm hden) hden, ← Nat.mul_assoc, ← Nat.pow_add]
  exact Nat.mul_le_mul_right_iff (Nat.pos_of_ne_zero hden)

/-- The rounded coefficient of a whole number counts the bits that are kept. -/
theorem roundedMantissa_whole (hm : m ≠ 0) (hden : den ≠ 0) :
    roundedMantissa (m * den) den * 2 ^ (lastBit (m * den) den).toNat
      = keptBits m * 2 ^ (-lastBit (m * den) den).toNat := by
  have hpos := Nat.pos_of_ne_zero hden
  have hbit := le_lastBit_whole_iff hm hden
  unfold roundedMantissa
  generalize lastBit (m * den) den = e at hbit ⊢
  by_cases hlarge : 0 ≤ e
  · -- the last bit that is kept is no fraction
    obtain ⟨t, rfl⟩ := Int.eq_ofNat_of_zero_le hlarge
    have hlow := (hbit t).mp (Int.le_refl _)
    have hhigh : m < 2 ^ (52 + (t + 1)) := Nat.not_le.mp fun h => by
      have := (hbit (t + 1)).mpr h
      omega
    have hlog : m.log2 - 52 = t := by
      have hle := (Nat.le_log2 hm).mpr hlow
      have hlt := (Nat.log2_lt hm).mpr hhigh
      omega
    rw [inUnits_natCast]
    dsimp only
    rw [Nat.mul_comm den, divHalfEven_mul_right _ _ hpos, keptBits, hlog]
    simp
  · -- all bits are kept, and zeros behind them
    have hsmall : m < 2 ^ 52 := Nat.not_le.mp fun h => hlarge ((hbit 0).mpr h)
    have hle : m ≤ 2 ^ 53 := hsmall.le.trans (Nat.pow_le_pow_right (by decide) (by decide))
    have hunits : inUnits (m * den) den e = (m * 2 ^ (-e).toNat * den, den) := by
      have hpower : e.toNat = 0 := by omega
      show (m * den * 2 ^ (-e).toNat, den * 2 ^ e.toNat) = _
      rw [hpower, Nat.pow_zero, Nat.mul_one, Nat.mul_right_comm]
    have hpower : e.toNat = 0 := by omega
    rw [hunits, divHalfEven_mul_left _ hpos, keptBits_of_le hle, hpower, Nat.pow_zero, Nat.mul_one]

/-- Twice the coefficient is worth as much as one more in the exponent. -/
theorem carried_eq {k : ℕ} (h : Nat.pow 2 53 * 2 ^ e.toNat = k * 2 ^ (-e).toNat) :
    Nat.pow 2 52 * 2 ^ (e + 1).toNat = k * 2 ^ (-(e + 1)).toNat := by
  have hcarry : Nat.pow 2 53 = Nat.pow 2 52 * 2 := rfl
  rw [hcarry, Nat.mul_assoc] at h
  generalize Nat.pow 2 52 = c at h ⊢
  -- the power stands on one side of the equation or on the other
  rcases lt_or_ge e 0 with hneg | hpos
  · obtain ⟨hlow, hhigh⟩ : e.toNat = 0 ∧ (-e).toNat = (-(e + 1)).toNat + 1 := by omega
    have hnext : (e + 1).toNat = 0 := by omega
    rw [hlow, hhigh, Nat.pow_succ, ← Nat.mul_assoc] at h
    rw [hnext]
    rw [Nat.pow_zero] at h ⊢
    rw [Nat.mul_one] at h ⊢
    exact Nat.eq_of_mul_eq_mul_right Nat.two_pos (h.trans (Nat.mul_assoc ..).symm)
  · obtain ⟨hlow, hhigh⟩ : (-e).toNat = 0 ∧ (e + 1).toNat = e.toNat + 1 := by omega
    have hnext : (-(e + 1)).toNat = 0 := by omega
    rw [hlow] at h
    rw [hnext, hhigh, Nat.pow_succ, Nat.mul_comm (2 ^ e.toNat)]
    exact h

/-- **A whole number keeps its first 53 bits**, as whatever quotient it is written. -/
theorem toInt?_nearest_whole (hm : m ≠ 0) (hden : den ≠ 0)
    (hfinite : (nearest neg (m * den) den).isFinite = true) :
    (nearest neg (m * den) den).toInt? = some (if neg then -(keptBits m : ℤ) else keptBits m) := by
  have hrounded := roundedMantissa_whole hm hden
  rw [nearest_eq_carried (Nat.mul_ne_zero hm hden)] at hfinite ⊢
  rcases carried_cases hfinite with ⟨-, hnearest⟩ | ⟨hcarry, hnearest⟩
  · rw [hnearest]
    exact toInt?_finite hrounded
  · rw [hcarry] at hrounded
    rw [hnearest]
    exact toInt?_finite (carried_eq hrounded)

end Binary64

/-! ## Decimals with whole values -/

namespace Decimal

variable {d : Decimal} {n : ℤ}

theorem natAbs_of_toRat (h : d.toRat = n) :
    d.coeff * 10 ^ d.exp.toNat = n.natAbs * 10 ^ (-d.exp).toNat := by
  have habs : (n.natAbs : ℚ) = d.coeff * 10 ^ d.exp := by
    rw [← abs_toRat, h, Nat.cast_natAbs, Int.cast_abs]
  have hvalue : (d.coeff * 10 ^ d.exp.toNat : ℚ) = n.natAbs * 10 ^ (-d.exp).toNat := by
    rw [habs, mul_assoc, zpow_mul_pow_toNat (by norm_num)]
  exact_mod_cast hvalue

theorem neg_of_toRat (h : d.toRat = n) (hn : n ≠ 0) : d.neg = decide (n < 0) := by
  have hvalue : (0 : ℚ) ≤ d.coeff * 10 ^ d.exp := by positivity
  rw [toRat] at h
  cases hneg : d.neg with
  | false =>
    rw [hneg] at h
    have hnonneg : (0 : ℚ) ≤ n := by
      rw [← h]
      simpa using hvalue
    have : 0 ≤ n := by exact_mod_cast hnonneg
    simp [this]
  | true =>
    rw [hneg] at h
    have hnonpos : (n : ℚ) ≤ 0 := by
      rw [← h]
      simpa using hvalue
    have : n ≤ 0 := by exact_mod_cast hnonpos
    simp only [Bool.true_eq, decide_eq_true_eq]
    omega

end Decimal

namespace Binary64

/-- **A decimal with a whole value keeps the first 53 bits of it**, however it is written. -/
theorem toInt?_ofDecimal {d : Decimal} {n : ℤ} (h : d.toRat = n)
    (hfinite : (ofDecimal d).isFinite = true) :
    (ofDecimal d).toInt? = some (keptWhole n) := by
  by_cases hn : n = 0
  · subst hn
    have hzero : d.coeff = 0 := Decimal.toRat_eq_zero_iff.mp (by rw [h, Int.cast_zero])
    rw [ofDecimal, if_pos hzero]
    show (finite d.neg 0 minExponent).toInt? = _
    rw [toInt?_finite (k := 0) (by rw [Nat.zero_mul, Nat.zero_mul]),
      keptWhole_eq_self_iff.mpr (Nat.dvd_zero _)]
    simp
  · have hcoeff : d.coeff ≠ 0 := by
      refine mt Decimal.toRat_of_coeff_eq_zero ?_
      rw [h]
      exact_mod_cast hn
    have hm : n.natAbs ≠ 0 := Int.natAbs_ne_zero.mpr hn
    rw [ofDecimal, if_neg hcoeff] at hfinite ⊢
    split at hfinite
    · cases hfinite
    · next hlarge =>
      -- a whole number other than zero is not small
      have hsmall : ¬ d.leadingExponent < -400 := by
        intro hlead
        have hlt := Decimal.abs_toRat_lt d
        have hone : (1 : ℚ) ≤ |d.toRat| := by
          rw [h, ← Int.cast_abs]
          exact_mod_cast Int.one_le_abs hn
        have hpow : (10 : ℚ) ^ (d.leadingExponent + 1) ≤ 1 :=
          zpow_le_one_of_nonpos₀ (by norm_num) (by omega)
        linarith
      rw [if_neg hsmall] at hfinite
      rw [if_neg hlarge, if_neg hsmall]
      have hpower : Nat.pow 10 (-d.exp).toNat ≠ 0 := (Nat.pow_pos (by decide)).ne'
      have hquotient : d.coeff * Nat.pow 10 d.exp.toNat = n.natAbs * Nat.pow 10 (-d.exp).toNat :=
        Decimal.natAbs_of_toRat h
      rw [hquotient] at hfinite ⊢
      rw [toInt?_nearest_whole hm hpower hfinite, Decimal.neg_of_toRat h hn]
      simp only [decide_eq_true_eq, keptWhole]

end Binary64

end Tariff

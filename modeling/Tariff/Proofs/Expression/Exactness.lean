import Tariff.Proofs.Numeral.Exactness
import Tariff.Proofs.Rounding

/-!
# Expressions that are computed exactly

The exact value of an expression is a rational number (`Tree.exact`). As long as every operation has
an exact result that its 28 digits can hold (`Tree.StaysExact`), the value that is computed is the
exact one (`Tree.evaluate_of_staysExact`), and the price is the exact value rounded half away from
zero (`Tree.evaluation_exact`). A single operation is exact in no other case
(`Operator.apply_exact_iff`). Numbers are read as they are written, so that only operations count, a
minus among them.
-/

namespace Tariff.Expression

open Numeral Decimal

/-! ## One operation -/

/-- The exact result of an operation. -/
def Operator.exact : Operator → ℚ → ℚ → ℚ
  | .add, p, q => p + q
  | .sub, p, q => p - q
  | .mul, p, q => p * q
  | .div, p, q => p / q

theorem Operator.exists_apply {op : Operator} {a b : Decimal} (hdiv : op = .div → b.toRat ≠ 0)
    (h : IsKept (op.exact a.toRat b.toRat)) :
    ∃ x : Decimal, op.apply a b = x.fit?.elim (.error .overflow) .ok
      ∧ x.toRat = op.exact a.toRat b.toRat := by
  cases op with
  | add =>
    obtain ⟨x, hx, hvalue⟩ := exists_add? a b
    exact ⟨x, by rw [← hx]; rfl, hvalue⟩
  | sub =>
    obtain ⟨x, hx, hvalue⟩ := exists_sub? a b
    exact ⟨x, by rw [← hx]; rfl, hvalue⟩
  | mul =>
    obtain ⟨x, hx, hvalue⟩ := exists_mul? a b
    exact ⟨x, by rw [← hx]; rfl, hvalue⟩
  | div =>
    have hb : b.coeff ≠ 0 := coeff_ne_zero_of_toRat_ne_zero (hdiv rfl)
    have hzero : ¬ b.isZero = true := by simpa [isZero] using hb
    obtain ⟨x, hx, hvalue⟩ := exists_div? hb h
    refine ⟨x, ?_, hvalue⟩
    rw [← hx]
    exact if_neg hzero

/-- **An operation is exact if its result is kept.** -/
theorem Operator.apply_of_isKept {op : Operator} {a b : Decimal} (hdiv : op = .div → b.toRat ≠ 0)
    (h : IsKept (op.exact a.toRat b.toRat)) :
    ∃ d, op.apply a b = .ok d ∧ d.toRat = op.exact a.toRat b.toRat := by
  obtain ⟨x, hx, hvalue⟩ := Operator.exists_apply hdiv h
  rw [← hvalue] at h
  obtain ⟨d, hd, hfitted⟩ := exists_fit?_of_isKept h
  exact ⟨d, by rw [hx, hd]; rfl, hfitted.trans hvalue⟩

/-- **An operation is exact in no other case.** -/
theorem Operator.apply_exact_iff {op : Operator} {a b d : Decimal} (h : op.apply a b = .ok d) :
    d.toRat = op.exact a.toRat b.toRat ↔ IsKept (op.exact a.toRat b.toRat) := by
  constructor
  · intro hvalue
    obtain ⟨x, hx⟩ := Operator.exists_fit?_of_apply h
    exact ⟨d, isNarrow_of_fit? hx, hvalue⟩
  · intro hkept
    have hdiv : op = .div → b.toRat ≠ 0 := by
      rintro rfl hzero
      have hb : b.isZero = true := by simpa [isZero] using toRat_eq_zero_iff.mp hzero
      rw [Operator.apply, if_pos hb] at h
      cases h
    obtain ⟨d', hd', hvalue⟩ := Operator.apply_of_isKept hdiv hkept
    rw [h] at hd'
    cases hd'
    exact hvalue

theorem neg?_of_isKept {a : Decimal} (h : IsKept (-a.toRat)) :
    ∃ d, a.neg? = some d ∧ d.toRat = -a.toRat := by
  obtain ⟨x, hx, hvalue⟩ := exists_neg? a
  rw [← hvalue] at h
  obtain ⟨d, hd, hfitted⟩ := exists_fit?_of_isKept h
  exact ⟨d, hx.trans hd, hfitted.trans hvalue⟩

/-! ## All operations of a tree -/

namespace Tree

/-- The exact value of an expression. -/
def exact : Tree → ℚ
  | literal d => d.toRat
  | group t => t.exact
  | negate t => -t.exact
  | binary op l r => op.exact l.exact r.exact

/-- No divisor is zero, and the exact result of every operation has few digits, none of which counts
too small or too large a power of ten. -/
def StaysExact : Tree → Prop
  | literal _ => True
  | group t => t.StaysExact
  | negate t => t.StaysExact ∧ IsKept (-t.exact)
  | binary op l r => l.StaysExact ∧ r.StaysExact ∧ (op = .div → r.exact ≠ 0)
      ∧ IsKept (op.exact l.exact r.exact)

/-- **An expression whose operations are exact has its exact value.** -/
theorem evaluate_of_staysExact {t : Tree} (h : t.StaysExact) :
    ∃ d, t.evaluate = .ok d ∧ d.toRat = t.exact := by
  induction t with
  | literal d => exact ⟨d, rfl, rfl⟩
  | group t ih => exact ih h
  | negate t ih =>
    obtain ⟨a, ha, hvalue⟩ := ih h.1
    have hkept : IsKept (-a.toRat) := by
      rw [hvalue]
      exact h.2
    obtain ⟨d, hd, hnegated⟩ := neg?_of_isKept hkept
    refine ⟨d, bind_eq_ok_iff.mpr ⟨a, ha, elim_eq_ok_iff.mpr hd⟩, ?_⟩
    rw [hnegated, hvalue]
    rfl
  | binary op l r ihl ihr =>
    obtain ⟨hl, hr, hdivisor, hkept⟩ := h
    obtain ⟨a, ha, hleft⟩ := ihl hl
    obtain ⟨b, hb, hright⟩ := ihr hr
    rw [← hright] at hdivisor
    rw [← hleft, ← hright] at hkept
    obtain ⟨d, hd, hvalue⟩ := Operator.apply_of_isKept hdivisor hkept
    refine ⟨d, ?_, by rw [hvalue, hleft, hright]; rfl⟩
    cases op with
    | div =>
      -- a divisor is looked at before the dividend is computed
      have hzero : ¬ b.isZero = true := by
        simpa [isZero] using coeff_ne_zero_of_toRat_ne_zero (hdivisor rfl)
      rw [evaluate, hb]
      show (if b.isZero then _ else _) = _
      rw [if_neg hzero, ha]
      exact hd
    | add | sub | mul => exact bind_eq_ok_iff.mpr ⟨a, ha, bind_eq_ok_iff.mpr ⟨b, hb, hd⟩⟩

/-- Only a written number can be too large to be rounded. -/
theorem toPrice_cases {t : Tree} {d : Decimal} (hvalue : t.evaluate = .ok d) :
    d.toPrice = .ok (nearestAway d.toRat)
      ∨ d ∈ t.literals ∧ 10 ^ mostDigits ≤ (nearestAway d.toRat).natAbs
        ∧ d.toPrice = .error .unroundable := by
  by_cases hfits : (nearestAway d.toRat).natAbs < 10 ^ mostDigits
  · left
    rw [toPrice_eq, roundHalfAway_eq, if_pos hfits]
  · right
    -- the result of an operation has few digits, however large it is
    have hwritten : d ∈ t.literals := by
      refine (value_cases hvalue).resolve_right ?_
      rintro ⟨x, hx⟩
      have hprice := toPrice_of_isInRange (IsShort.of_fit? hx).isInRange
      rw [toPrice_eq, roundHalfAway_eq, if_neg hfits] at hprice
      cases hprice
    refine ⟨hwritten, Nat.not_lt.mp hfits, ?_⟩
    rw [toPrice_eq, roundHalfAway_eq, if_neg hfits]

/-- **Arithmetic is exact whenever it can be.** If the exact result of every operation of an
expression can be kept, then its value is the exact one, and its price is the exact value rounded
half away from zero. Only a number that is itself written with more than a million digits has no
price (`evaluation_exact_unrounded`). -/
theorem evaluation_exact {t : Tree} (h : t.StaysExact) :
    ∃ d, t.evaluate = .ok d ∧ d.toRat = t.exact
      ∧ (d.toPrice = .ok (nearestAway t.exact)
        ∨ d ∈ t.literals ∧ 10 ^ mostDigits ≤ (nearestAway t.exact).natAbs
          ∧ d.toPrice = .error .unroundable)
      ∧ ∀ cs depth, Tree.ofText cs depth = .ok t → evaluateText cs depth = .ok d
        ∧ (cs.length ≤ mostDigits → d.toPrice = .ok (nearestAway t.exact)) := by
  obtain ⟨d, hd, hvalue⟩ := evaluate_of_staysExact h
  have hprice := toPrice_cases hd
  rw [hvalue] at hprice
  refine ⟨d, hd, hvalue, hprice, fun cs depth htree => ?_⟩
  have htext : evaluateText cs depth = .ok d :=
    bind_eq_ok_iff.mpr ⟨t, mapError_eq_ok_iff.mpr htree, mapError_eq_ok_iff.mpr hd⟩
  refine ⟨htext, fun hlength => ?_⟩
  rw [toPrice_of_isInRange (isShort_of_evaluateText htext hlength).isInRange, hvalue]

/-- Two numbers of more than 28 digits differ by a short one, and the quotient of that by four ends.
-/
theorem evaluation_exact_long :
    let long : Tree := .literal ⟨false, 1234567890123456789012345678905, -1⟩
    let other : Tree := .literal ⟨false, 12345678901234567890123456788025, -2⟩
    let t : Tree :=
      .binary .div (.group (.binary .sub long other)) (.negate (.literal ⟨false, 4, 0⟩))
    t.StaysExact ∧ t.exact = -41 / 16
      ∧ ∃ d, t.evaluate = .ok d ∧ d.toRat = -41 / 16 ∧ d.toPrice = .ok (-3) := by
  intro long other t
  have hlong : long.exact = 123456789012345678901234567890 + 1 / 2 := by
    norm_num [long, exact, toRat]
  have hother : other.exact = 123456789012345678901234567880 + 1 / 4 := by
    norm_num [other, exact, toRat]
  have hdifference : (Tree.binary .sub long other).exact = 41 / 4 := by
    show long.exact - other.exact = _
    rw [hlong, hother]
    norm_num
  have hfour : (Tree.literal ⟨false, 4, 0⟩).exact = 4 := by norm_num [exact, toRat]
  have hvalue : t.exact = -41 / 16 := by
    show (Tree.binary .sub long other).exact / -(Tree.literal ⟨false, 4, 0⟩).exact = _
    rw [hdifference, hfour]
    norm_num
  have hexact : t.StaysExact := by
    refine ⟨⟨trivial, trivial, fun h => absurd h (by decide), ?_⟩, ⟨trivial, ?_⟩, fun _ => ?_, ?_⟩
    · refine ⟨⟨false, 1025, -2⟩, by decide, Eq.trans ?_ hdifference.symm⟩
      norm_num [toRat]
    · refine ⟨⟨true, 4, 0⟩, by decide, ?_⟩
      rw [hfour]
      norm_num [toRat]
    · show -(Tree.literal ⟨false, 4, 0⟩).exact ≠ 0
      rw [hfour]
      norm_num
    · refine ⟨⟨true, 25625, -4⟩, by decide, Eq.trans ?_ hvalue.symm⟩
      norm_num [toRat]
  have hnearest : nearestAway (-41 / 16) = -3 := by
    have hrounded := roundHalfAway_eq ⟨true, 25625, -4⟩
    have hrat : toRat ⟨true, 25625, -4⟩ = -41 / 16 := by norm_num [toRat]
    rw [hrat] at hrounded
    rw [← hrounded]
    decide
  obtain ⟨d, hd, hrat, hprice, -⟩ := evaluation_exact hexact
  rw [hvalue] at hrat hprice
  refine ⟨hexact, hvalue, d, hd, hrat, ?_⟩
  rw [hnearest] at hprice
  rcases hprice with hprice | ⟨-, hlarge, -⟩
  · exact hprice
  · have hten : 10 ^ 1 ≤ 10 ^ mostDigits := Nat.pow_le_pow_right (by decide) mostDigits_pos
    omega

theorem toPrice_whole_long {n : ℕ} (h : 10 ^ mostDigits ≤ n) :
    Decimal.toPrice ⟨false, n, 0⟩ = .error .unroundable := by
  have hvalue : toRat ⟨false, n, 0⟩ = (n : ℤ) := by simp [toRat]
  rw [toPrice_eq, roundHalfAway_eq, hvalue, nearestAway_intCast, Int.natAbs_natCast,
    if_neg (Nat.not_lt.mpr h)]

/-- **Not every exact value is rounded**: the least number with a million zeros is read and computed
without any operation, and its price is refused. -/
theorem evaluation_exact_unrounded :
    let n : ℕ := 10 ^ mostDigits
    let t : Tree := .literal ⟨false, n, 0⟩
    Tree.ofText (digits n) 0 = .ok t ∧ t.StaysExact ∧ t.exact = n ∧ nearestAway t.exact = n
      ∧ t.evaluate = .ok ⟨false, n, 0⟩ ∧ Decimal.toPrice ⟨false, n, 0⟩ = .error .unroundable := by
  intro n t
  have hvalue : t.exact = (n : ℤ) := by simp [t, exact, toRat]
  refine ⟨ofText_digits n 0, trivial, by rw [hvalue]; norm_cast, ?_, rfl,
    toPrice_whole_long (Nat.le_refl _)⟩
  rw [hvalue, nearestAway_intCast]

end Tree

end Tariff.Expression

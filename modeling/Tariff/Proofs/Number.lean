import Mathlib.Data.Rat.Floor
import Tariff.Number

/-!
# Numbers by their values

A whole number and a binary64 number are the same if their exact values are. A value is a place on
the extended line with a quotient, whose denominator is never zero (`place?_pos`), so that being the
same passes on from one number to the next (`equals_trans`).

The place of a finite number is its value as a rational number, and finite numbers are in the order
of their values (`compare?_eq`).
-/

namespace Tariff.Number

/-- The denominator of a place is not zero. -/
theorem place?_pos {a : Number} {i n : Int} {d : Nat} (h : a.place? = some (i, n, d)) : 0 < d := by
  cases a with
  | whole n =>
    cases h
    exact Nat.one_pos
  | real x =>
    cases x with
    | finite neg m e =>
      cases h
      exact Nat.pow_pos Nat.two_pos
    | infinite neg =>
      cases h
      exact Nat.one_pos
    | nan => cases h

theorem equals_iff {a b : Number} :
    a.equals b = true ↔ ∃ (i n m : Int) (d e : Nat), a.place? = some (i, n, d)
      ∧ b.place? = some (i, m, e) ∧ n * e = m * d := by
  unfold equals compare?
  cases ha : a.place? with
  | none => simp
  | some p =>
    obtain ⟨i, n, d⟩ := p
    cases hb : b.place? with
    | none => simp
    | some p =>
      obtain ⟨j, m, e⟩ := p
      have hplaces : (compare i j).then (compare (n * e) (m * d)) = .eq
          ↔ i = j ∧ n * e = m * d := by
        rw [Ordering.then_eq_eq, Std.compare_eq_iff_eq, Std.compare_eq_iff_eq]
      show (some ((compare i j).then (compare (n * e) (m * d))) == some .eq) = true ↔ _
      rw [beq_iff_eq, Option.some_inj, hplaces]
      constructor
      · rintro ⟨rfl, hvalues⟩
        exact ⟨i, n, m, d, e, rfl, rfl, hvalues⟩
      · rintro ⟨_, _, _, _, _, hfirst, hsecond, hvalues⟩
        cases hfirst
        cases hsecond
        exact ⟨rfl, hvalues⟩

theorem equals_trans {a b c : Number} (hab : a.equals b = true) (hbc : b.equals c = true) :
    a.equals c = true := by
  obtain ⟨i, n, m, d, e, ha, hb, hvalues⟩ := equals_iff.mp hab
  obtain ⟨j, m', l, e', k, hb', hc, hvalues'⟩ := equals_iff.mp hbc
  cases hb.symm.trans hb'
  have hpos : (e : Int) ≠ 0 := by
    have := place?_pos hb
    omega
  -- both sides are compared after they are multiplied by the denominator in the middle
  have hcross : n * k * e = l * d * e :=
    calc n * k * e = n * e * k := Int.mul_right_comm ..
      _ = m * k * d := by rw [hvalues, Int.mul_right_comm]
      _ = l * d * e := by rw [hvalues', Int.mul_right_comm]
  exact equals_iff.mpr ⟨i, n, l, d, k, ha, hc, Int.eq_of_mul_eq_mul_right hpos hcross⟩

/-! ## Finite numbers -/

/-- The exact value of a finite number. -/
def value (a : Number) : ℚ :=
  (a.place?.map fun p => (p.2.1 : ℚ) / p.2.2).getD 0

theorem value_of_place? {a : Number} {n : ℤ} {d : ℕ} (h : a.place? = some (0, n, d)) :
    a.value = n / d := by
  rw [value, h]
  rfl

/-- A finite number is at the middle of the extended line, with its value for a quotient. -/
theorem exists_place? {a : Number} (h : a.isFinite = true) :
    ∃ (n : ℤ) (d : ℕ), a.place? = some (0, n, d) ∧ 0 < d ∧ a.value = n / d := by
  obtain ⟨n, d, hplace⟩ : ∃ n d, a.place? = some (0, n, d) := by
    cases a with
    | whole n => exact ⟨n, 1, rfl⟩
    | real x =>
      cases x with
      | finite neg m e => exact ⟨_, _, rfl⟩
      | infinite neg | nan => cases h
  exact ⟨n, d, hplace, place?_pos hplace, value_of_place? hplace⟩

/-- Quotients are in the order of their cross products. -/
theorem compare_cross (n m : ℤ) {d e : ℕ} (hd : 0 < d) (he : 0 < e) :
    compare (n * e) (m * d) = compare (n / d : ℚ) (m / e) := by
  have hd' : (0 : ℚ) < d := by exact_mod_cast hd
  have he' : (0 : ℚ) < e := by exact_mod_cast he
  rcases lt_trichotomy (n * e) (m * d) with h | h | h
  · have hlt : (n / d : ℚ) < m / e := by
      rw [div_lt_div_iff₀ hd' he']
      exact_mod_cast h
    rw [compare_lt_iff_lt.mpr h, compare_lt_iff_lt.mpr hlt]
  · have heq : (n / d : ℚ) = m / e := by
      rw [div_eq_div_iff hd'.ne' he'.ne']
      exact_mod_cast h
    rw [compare_eq_iff_eq.mpr h, compare_eq_iff_eq.mpr heq]
  · have hgt : (m / e : ℚ) < n / d := by
      rw [div_lt_div_iff₀ he' hd']
      exact_mod_cast h
    rw [compare_gt_iff_gt.mpr h, compare_gt_iff_gt.mpr hgt]

/-- **Finite numbers are compared by their exact values.** -/
theorem compare?_eq {a b : Number} (ha : a.isFinite = true) (hb : b.isFinite = true) :
    a.compare? b = some (compare a.value b.value) := by
  obtain ⟨n, d, hplace, hd, hvalue⟩ := exists_place? ha
  obtain ⟨m, e, hplace', he, hvalue'⟩ := exists_place? hb
  rw [compare?, hplace, hplace', hvalue, hvalue', ← compare_cross n m hd he]
  simp

end Tariff.Number

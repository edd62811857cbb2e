import Tariff.Proofs.Expression.Acceptance
import Tariff.Proofs.Numeral.Fitting

/-!
# Rounding to prices

While a number is rounded, as many digits are kept as stand before its point, and one more. That is
always enough: a number is rounded to the nearest integer, with halves away from zero, unless this
has more than a million digits (`Decimal.toPrice_eq`).

Values of expressions never have as many. A value is a number of the expression or was fitted to the
digits that an operation keeps (`Expression.Tree.value_cases`), so that a text must be as long as a
number to have it as its value (`isShort_of_evaluateText`).

The digits before the point are counted from the leading exponent, which for a zero is any exponent.
A zero that counts too large a power of ten asks for more digits than can be kept, and is not
rounded at all (`Decimal.roundToPrice_of_isInRange`).
-/

namespace Tariff

open Numeral Expression

/-- The most digits that a price may have. -/
@[irreducible]
def mostDigits : ℕ := 1000000

theorem maxExponent_eq : Decimal.maxExponent = mostDigits - 1 := by
  unfold mostDigits
  rfl

theorem mostDigits_le_greatestPrecision :
    (mostDigits : ℤ) + 28 ≤ Decimal.greatestPrecision := by
  unfold mostDigits
  decide

theorem mostDigits_pos : 0 < mostDigits := by
  unfold mostDigits
  decide

namespace Decimal

variable {d e : Decimal}

/-! ## Enough digits are kept -/

/-- A number is not rounded beyond the power of ten behind its leading digit. -/
theorem natAbs_roundHalfAway_le (d : Decimal) :
    d.roundHalfAway.natAbs ≤ 10 ^ (d.leadingExponent + 1).toNat := by
  rw [roundHalfAway_eq]
  refine natAbs_nearestAway_le ?_
  have hpower : (10 : ℚ) ^ (d.leadingExponent + 1)
      ≤ ((10 ^ (d.leadingExponent + 1).toNat : ℕ) : ℚ) := by
    push_cast
    rw [← zpow_natCast]
    exact zpow_le_zpow_right₀ (by norm_num) (Int.self_le_toNat _)
  linarith [abs_toRat_lt d]

/-- So the integer has at most one digit more than stand before the point. -/
theorem digitCount_roundHalfAway_le (d : Decimal) :
    (digitCount d.roundHalfAway.natAbs : ℤ) ≤ d.widePrecision := by
  have hcount : digitCount d.roundHalfAway.natAbs ≤ (d.leadingExponent + 1).toNat + 1 := by
    rw [digitCount_le_iff (Nat.succ_pos _)]
    exact Nat.lt_of_le_of_lt (natAbs_roundHalfAway_le d)
      (Nat.pow_lt_pow_right (by decide) (by omega))
  simp only [widePrecision, precision]
  omega

theorem pow_le_natAbs_roundHalfAway {k : ℕ} (hcoeff : d.coeff ≠ 0) (hk : k ≤ d.leadingExponent) :
    10 ^ k ≤ d.roundHalfAway.natAbs := by
  rw [roundHalfAway_eq]
  refine le_natAbs_nearestAway ?_
  calc ((10 ^ k : ℕ) : ℚ) = 10 ^ (k : ℤ) := by
        push_cast
        exact (zpow_natCast ..).symm
    _ ≤ 10 ^ d.leadingExponent := zpow_le_zpow_right₀ (by norm_num) hk
    _ ≤ |d.toRat| := pow_leadingExponent_le hcoeff

/-- **Only too large a number is not rounded**: for every other one the digits kept are enough. -/
theorem toPrice_eq (d : Decimal) :
    d.toPrice = if d.roundHalfAway.natAbs < 10 ^ mostDigits then .ok d.roundHalfAway
      else .error .unroundable := by
  have hkept := digitCount_roundHalfAway_le d
  have hwide : d.leadingExponent + 2 ≤ d.widePrecision := le_max_right _ _
  have hshort : d.roundHalfAway.natAbs < 10 ^ mostDigits
      ↔ digitCount d.roundHalfAway.natAbs ≤ mostDigits := (digitCount_le_iff mostDigits_pos).symm
  unfold toPrice toInteger?
  rw [maxExponent_eq]
  by_cases hzero : d.coeff = 0
  · have hrounded : d.roundHalfAway = 0 := by
      rw [roundHalfAway_eq, toRat_of_coeff_eq_zero hzero, nearestAway_zero]
    have hpos : Int.natAbs 0 < 10 ^ mostDigits := Nat.pow_pos (by decide)
    rw [if_pos hzero, hrounded, if_pos hpos]
    rfl
  · rw [if_neg hzero]
    by_cases hlarge : (mostDigits : ℤ) ≤ d.leadingExponent
    · -- rounding does not make it smaller
      have habove := pow_le_natAbs_roundHalfAway hzero hlarge
      rw [if_pos (by omega), if_neg (Nat.not_lt.mpr habove)]
      rfl
    · rw [if_neg (by omega)]
      dsimp only
      split
      · next hlong => rw [if_neg (by omega)]; rfl
      · next hfits => rw [if_pos (by omega)]; rfl

/-! ## Numbers in range -/

/-- A number that is not rounded to more digits than a price may have. -/
def IsInRange (d : Decimal) : Prop :=
  |d.toRat| ≤ 10 ^ mostDigits - 1

theorem toPrice_of_isInRange (h : d.IsInRange) : d.toPrice = .ok (nearestAway d.toRat) := by
  have hbound : (nearestAway d.toRat).natAbs ≤ 10 ^ mostDigits - 1 := by
    refine natAbs_nearestAway_le (lt_of_le_of_lt h ?_)
    rw [Nat.cast_sub (Nat.one_le_pow _ _ (by decide))]
    push_cast
    linarith
  have hpos : 0 < 10 ^ mostDigits := Nat.pow_pos (by decide)
  rw [toPrice_eq, roundHalfAway_eq, if_pos (by omega)]

/-- A zero that counts so large a power of ten that the digits to keep are too many to ask for. -/
def IsWideZero (d : Decimal) : Prop :=
  d.coeff = 0 ∧ greatestPrecision < d.exp + 2

instance (d : Decimal) : Decidable d.IsWideZero :=
  inferInstanceAs (Decidable (_ ∧ _))

theorem leadingExponent_lt (hcoeff : d.coeff ≠ 0) (h : d.IsInRange) :
    d.leadingExponent < mostDigits := by
  by_contra hlarge
  have hpower : (10 : ℚ) ^ mostDigits ≤ 10 ^ d.leadingExponent := by
    rw [← zpow_natCast]
    exact zpow_le_zpow_right₀ (by norm_num) (Int.not_lt.mp hlarge)
  have hrange : |d.toRat| ≤ 10 ^ mostDigits - 1 := h
  linarith [pow_leadingExponent_le hcoeff]

/-- Of the numbers in range only wide zeros ask for too many digits. -/
theorem greatestPrecision_lt_iff (h : d.IsInRange) :
    greatestPrecision < d.widePrecision ↔ d.IsWideZero := by
  have hgreatest := mostDigits_le_greatestPrecision
  unfold IsWideZero widePrecision precision
  by_cases hcoeff : d.coeff = 0
  · rw [leadingExponent_of_coeff_eq_zero hcoeff]
    omega
  · have hlead := leadingExponent_lt hcoeff h
    omega

theorem roundToPrice_of_isInRange (h : d.IsInRange) :
    d.roundToPrice
      = if d.IsWideZero then .error .precision else .ok (nearestAway d.toRat) := by
  unfold roundToPrice
  rw [toPrice_of_isInRange h]
  by_cases hwide : d.IsWideZero
  · rw [if_pos hwide, if_pos ((greatestPrecision_lt_iff h).mpr hwide)]
  · rw [if_neg hwide, if_neg (mt (greatestPrecision_lt_iff h).mp hwide)]
    rfl

theorem IsInRange.opposite (h : d.IsInRange) : d.opposite.IsInRange := by
  unfold IsInRange at h ⊢
  rwa [toRat_opposite, abs_neg]

/-! ## What operations leave -/

/-- A number that is short, or whose digits all stand before the point with few zeros behind them.
-/
def IsShort (d : Decimal) : Prop :=
  (d.exp ≤ 0 ∧ d.coeff < 10 ^ mostDigits) ∨ (0 ≤ d.exp ∧ d.leadingExponent < mostDigits)

theorem IsShort.isInRange (h : d.IsShort) : d.IsInRange := by
  have hbound : ∀ {m : ℕ}, m < 10 ^ mostDigits → (m : ℚ) ≤ 10 ^ mostDigits - 1 := by
    intro m hm
    have hcast : ((m + 1 : ℕ) : ℚ) ≤ ((10 ^ mostDigits : ℕ) : ℚ) := Nat.cast_le.mpr hm
    push_cast at hcast
    linarith
  unfold IsInRange
  rcases h with ⟨hexp, hcoeff⟩ | ⟨hexp, hlead⟩
  · -- the point only makes it smaller
    calc |d.toRat| = d.coeff * 10 ^ d.exp := abs_toRat d
      _ ≤ d.coeff * 1 := by
        gcongr
        exact zpow_le_one_of_nonpos₀ (by norm_num) hexp
      _ = d.coeff := mul_one _
      _ ≤ 10 ^ mostDigits - 1 := hbound hcoeff
  · have hvalue : |d.toRat| = ((d.coeff * 10 ^ d.exp.toNat : ℕ) : ℚ) := by
      conv_lhs => rw [abs_toRat, ← Int.toNat_of_nonneg hexp, zpow_natCast]
      push_cast
      rfl
    rw [hvalue]
    refine hbound ?_
    calc d.coeff * 10 ^ d.exp.toNat < 10 ^ digitCount d.coeff * 10 ^ d.exp.toNat :=
          Nat.mul_lt_mul_of_pos_right (lt_pow_digitCount d.coeff) (Nat.pow_pos (by decide))
      _ = 10 ^ (digitCount d.coeff + d.exp.toNat) := (Nat.pow_add ..).symm
      _ ≤ 10 ^ mostDigits := Nat.pow_le_pow_right (by decide) (by
        simp only [leadingExponent] at hlead
        omega)

theorem IsShort.not_isWideZero (h : d.IsShort) : ¬ d.IsWideZero := by
  have hgreatest := mostDigits_le_greatestPrecision
  rintro ⟨hzero, hwide⟩
  rcases h with ⟨hexp, -⟩ | ⟨-, hlead⟩
  · omega
  · rw [leadingExponent_of_coeff_eq_zero hzero] at hlead
    omega

theorem IsShort.of_fit? (h : d.fit? = some e) : e.IsShort := by
  obtain ⟨hcoeff, hlead⟩ := coeff_lt_of_fit? h
  have hprecision : precision ≤ mostDigits := by
    unfold mostDigits
    decide
  rw [maxExponent_eq] at hlead
  rcases le_total e.exp 0 with hexp | hexp
  · exact .inl ⟨hexp, hcoeff.trans_le (Nat.pow_le_pow_right (by decide) hprecision)⟩
  · exact .inr ⟨hexp, by omega⟩

end Decimal

/-! ## Values of expressions -/

namespace Expression

open Numeral Decimal

theorem Operator.exists_fit?_of_apply {op : Operator} {a b d : Decimal} (h : op.apply a b = .ok d) :
    ∃ exact : Decimal, exact.fit? = some d := by
  cases op with
  | add => exact ⟨_, elim_eq_ok_iff.mp h⟩
  | sub => exact ⟨_, elim_eq_ok_iff.mp h⟩
  | mul => exact ⟨_, elim_eq_ok_iff.mp h⟩
  | div =>
    simp only [Operator.apply] at h
    split at h
    · cases h
    · have hquotient := elim_eq_ok_iff.mp h
      unfold Decimal.div? at hquotient
      dsimp only at hquotient
      split at hquotient
      · exact ⟨_, hquotient⟩
      · split at hquotient
        · exact ⟨_, hquotient⟩
        · exact ⟨_, hquotient⟩

namespace Tree

/-- The numbers of an expression, as they were written. -/
def literals : Tree → List Decimal
  | literal d => [d]
  | negate t => t.literals
  | group t => t.literals
  | binary _ l r => l.literals ++ r.literals

/-- **A value is written or fitted**: it is a number of the expression, or the last operation has
fitted it. -/
theorem value_cases {t : Tree} {d : Decimal} (h : t.evaluate = .ok d) :
    d ∈ t.literals ∨ ∃ exact : Decimal, exact.fit? = some d := by
  induction t generalizing d with
  | literal value =>
    cases h
    exact .inl (List.mem_singleton_self _)
  | negate t ih =>
    obtain ⟨c, -, hnegated⟩ := bind_eq_ok_iff.mp h
    exact .inr ⟨_, elim_eq_ok_iff.mp hnegated⟩
  | group t ih => exact ih h
  | binary op l r ihl ihr =>
    have happly : ∃ a b, op.apply a b = .ok d := by
      cases op with
      | div =>
        obtain ⟨b, -, hdivided⟩ := bind_eq_ok_iff.mp h
        split at hdivided
        · cases hdivided
        · obtain ⟨a, -, happly⟩ := bind_eq_ok_iff.mp hdivided
          exact ⟨a, b, happly⟩
      | _ =>
        obtain ⟨a, -, hright⟩ := bind_eq_ok_iff.mp h
        obtain ⟨b, -, happly⟩ := bind_eq_ok_iff.mp hright
        exact ⟨a, b, happly⟩
    obtain ⟨a, b, happly⟩ := happly
    exact .inr (Operator.exists_fit?_of_apply happly)

theorem InOrder.exists_number {t : Tree} {symbols : List Symbol} {d : Decimal}
    (h : t.InOrder symbols) (hd : d ∈ t.literals) :
    ∃ cs, Symbol.number cs ∈ symbols ∧ Decimal.read? cs = some d := by
  induction h with
  | literal hread =>
    rw [List.mem_singleton.mp hd]
    exact ⟨_, List.mem_singleton_self _, hread⟩
  | negate _ ih =>
    obtain ⟨cs, hcs, hread⟩ := ih hd
    exact ⟨cs, List.mem_cons_of_mem _ hcs, hread⟩
  | group _ ih =>
    obtain ⟨cs, hcs, hread⟩ := ih hd
    exact ⟨cs, List.mem_cons_of_mem _ (List.mem_append_left _ hcs), hread⟩
  | binary _ _ ihl ihr =>
    rcases List.mem_append.mp hd with hd | hd
    · obtain ⟨cs, hcs, hread⟩ := ihl hd
      exact ⟨cs, List.mem_append_left _ hcs, hread⟩
    · obtain ⟨cs, hcs, hread⟩ := ihr hd
      exact ⟨cs, List.mem_append_right _ (List.mem_cons_of_mem _ hcs), hread⟩

end Tree

theorem Spells.length_number_le {cs : List Char} {symbols : List Symbol} (h : Spells cs symbols) :
    ∀ ds, Symbol.number ds ∈ symbols → ds.length ≤ cs.length := by
  induction h with
  | nil => intro ds hds; cases hds
  | blank _ _ ih => exact fun ds hds => Nat.le_succ_of_le (ih ds hds)
  | @sign c s cs symbols hc _ ih =>
    intro ds hds
    rcases List.mem_cons.mp hds with rfl | hds
    · exact absurd hc (ofChar?_ne_number c ds)
    · exact Nat.le_succ_of_le (ih ds hds)
  | number _ _ _ ih =>
    intro ds hds
    rw [List.length_append]
    rcases List.mem_cons.mp hds with heq | hds
    · cases heq
      exact Nat.le_add_right _ _
    · exact Nat.le_add_left_of_le (ih ds hds)

/-- A number has no more digits than characters. -/
theorem IsNumber.isShort {cs : List Char} {d : Decimal} (h : IsNumber cs)
    (hread : Decimal.read? cs = some d) (hlength : cs.length ≤ mostDigits) : d.IsShort := by
  cases h with
  | whole hds hne =>
    rw [read?_whole hds hne] at hread
    cases hread
    have hcoeff := (ofDigits_lt hds).trans_le (Nat.pow_le_pow_right (by decide) hlength)
    exact .inl ⟨Int.le_refl 0, hcoeff⟩
  | @pointed ds fs hds hfs hne =>
    rw [read?_pointed hds hfs hne] at hread
    cases hread
    have hcount : (ds ++ fs).length ≤ mostDigits := by
      simp only [List.length_append, List.length_cons] at hlength ⊢
      omega
    refine .inl ⟨by dsimp only; omega, ?_⟩
    exact (ofDigits_lt (hds.append hfs)).trans_le (Nat.pow_le_pow_right (by decide) hcount)

end Expression

/-- **The value of a text is short**, if the text is no longer than the longest price. -/
theorem isShort_of_evaluateText {cs : List Char} {depth : ℕ} {d : Decimal}
    (h : evaluateText cs depth = .ok d) (hlength : cs.length ≤ mostDigits) : d.IsShort := by
  obtain ⟨t, htree, hvalue⟩ := bind_eq_ok_iff.mp h
  have htree' := mapError_eq_ok_iff.mp htree
  have hvalue' := mapError_eq_ok_iff.mp hvalue
  obtain ⟨lexemes, hscan, -, horder, -⟩ := ofText_eq_ok_iff.mp htree'
  have hspells : Spells cs (lexemes.map (·.symbol)) := scan_iff_spells.mp ⟨lexemes, hscan, rfl⟩
  rcases Tree.value_cases hvalue' with hliteral | ⟨exact, hfit⟩
  · obtain ⟨ds, hds, hread⟩ := horder.exists_number hliteral
    exact (hspells.isNumber ds hds).isShort hread ((hspells.length_number_le ds hds).trans hlength)
  · exact .of_fit? hfit

/-! ## The whole of rounding -/

theorem Decimal.IsInRange.toPrice_opposite {d : Decimal} (h : d.IsInRange) :
    (Extended.finite d.opposite).toPrice = (Extended.finite d).toPrice.map (-·) := by
  show d.opposite.roundToPrice = d.roundToPrice.map (-·)
  rw [Decimal.roundToPrice_of_isInRange h, Decimal.roundToPrice_of_isInRange h.opposite,
    Decimal.toRat_opposite, nearestAway_neg]
  by_cases hwide : d.IsWideZero
  · have hwide' : d.opposite.IsWideZero := hwide
    rw [if_pos hwide, if_pos hwide']
    rfl
  · have hwide' : ¬ d.opposite.IsWideZero := hwide
    rw [if_neg hwide, if_neg hwide']
    rfl

theorem toPrice_finite_eq_ok {d : Decimal} {n : ℤ} (h : d.IsInRange)
    (hprice : (Extended.finite d).toPrice = .ok n) : n = nearestAway d.toRat := by
  have hrounded : d.roundToPrice = .ok n := hprice
  rw [Decimal.roundToPrice_of_isInRange h] at hrounded
  split at hrounded
  · cases hrounded
  · exact (Except.ok.inj hrounded).symm

/-- **Rounding is exact, half away from zero.** Every number in range has the nearest integer as its
price, except that a wide zero is refused. So rounding is odd and monotone. The value of a text of
at most a million characters is in range, and it is no wide zero. -/
theorem rounding_half_away (d : Decimal) :
    (d.IsInRange → (Extended.finite d).toPrice
        = if d.IsWideZero then .error .precision else .ok (nearestAway d.toRat))
      ∧ (d.IsInRange →
        (Extended.finite d.opposite).toPrice = (Extended.finite d).toPrice.map (-·))
      ∧ (∀ e : Decimal, d.IsInRange → e.IsInRange → d.toRat ≤ e.toRat →
        ∀ m n, (Extended.finite d).toPrice = .ok m → (Extended.finite e).toPrice = .ok n → m ≤ n)
      ∧ ∀ (cs : List Char) (depth : ℕ), cs.length ≤ mostDigits → evaluateText cs depth = .ok d →
        d.IsInRange ∧ ¬ d.IsWideZero ∧ (Extended.finite d).toPrice = .ok (nearestAway d.toRat)
          ∧ d.toPrice = .ok (nearestAway d.toRat) := by
  refine ⟨fun hd => Decimal.roundToPrice_of_isInRange hd, fun hd => hd.toPrice_opposite,
    fun e hd he hle m n hm hn => ?_, fun cs depth hlength hvalue => ?_⟩
  · rw [toPrice_finite_eq_ok hd hm, toPrice_finite_eq_ok he hn]
    exact nearestAway_mono hle
  · have hshort := isShort_of_evaluateText hvalue hlength
    have hwide := hshort.not_isWideZero
    refine ⟨hshort.isInRange, hwide, ?_, Decimal.toPrice_of_isInRange hshort.isInRange⟩
    show d.roundToPrice = _
    rw [Decimal.roundToPrice_of_isInRange hshort.isInRange, if_neg hwide]

/-- A carry makes the price one digit longer, of either sign. -/
theorem rounding_half_away_carry :
    let d : Decimal := ⟨false, 9995, -1⟩
    d.IsInRange ∧ (Extended.finite d).toPrice = .ok 1000
      ∧ (Extended.finite d.opposite).toPrice = .ok (-1000) := by
  intro d
  obtain ⟨hprice, hodd, -, htext⟩ := rounding_half_away d
  have hlength : "999.5".toList.length ≤ mostDigits := by
    unfold mostDigits
    decide
  obtain ⟨hrange, hwide, -, -⟩ := htext "999.5".toList 0 hlength (by decide)
  have hnearest : nearestAway d.toRat = 1000 := by
    rw [← Decimal.roundHalfAway_eq]
    decide
  have hd := hprice hrange
  rw [if_neg hwide, hnearest] at hd
  refine ⟨hrange, hd, ?_⟩
  rw [hodd hrange, hd]
  rfl

/-- **A wide zero has no price**, although it is as near to zero as can be. -/
theorem rounding_wide_zero :
    let d : Decimal := ⟨false, 0, 10 ^ 18 - 2⟩
    d.toRat = 0 ∧ d.IsInRange ∧ (Extended.finite d).toPrice = .error .precision := by
  intro d
  have hzero : d.toRat = 0 := Decimal.toRat_of_coeff_eq_zero rfl
  have hrange : d.IsInRange := by
    show |d.toRat| ≤ _
    rw [hzero, abs_zero, sub_nonneg]
    exact one_le_pow₀ (by norm_num)
  refine ⟨hzero, hrange, ?_⟩
  show d.roundToPrice = _
  rw [Decimal.roundToPrice_of_isInRange hrange, if_pos (by decide)]

end Tariff

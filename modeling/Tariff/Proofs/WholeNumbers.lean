import Tariff.Json.Fault
import Tariff.Proofs.Expression.Composition
import Tariff.Proofs.Rounding

/-!
# Whole numbers as prices

A formula that is a single name has the number as its price that the name stands for, if this is a
whole number and not negative: its digits are read as they are written, however many there are. A
negative one is written with a minus, which is an operation and keeps 28 digits
(`Decimal.neg?_whole`), so that of a longer number only the rounded one is left
(`keptDigits_eq_self_iff`).
-/

namespace Tariff

open Numeral Expression

/-! ## The digits that are kept -/

/-- A number rounded to the digits that an operation keeps, half to even. -/
def keptDigits (m : ℕ) : ℕ :=
  let unit := 10 ^ (digitCount m - Decimal.precision)
  divHalfEven m unit * unit

theorem keptDigits_eq_self_iff {m : ℕ} :
    keptDigits m = m ↔ 10 ^ (digitCount m - Decimal.precision) ∣ m :=
  divHalfEven_mul_eq_iff (Nat.pow_pos (by decide))

/-- A number as an answer gives it: its digits are exact, and it has no sign. -/
def Decimal.ofNat (m : ℕ) : Decimal :=
  ⟨false, m, 0⟩

namespace Decimal

theorem cut_whole (neg : Bool) (m : ℕ) : cut ⟨neg, m, 0⟩ = digitCount m - precision := by
  simp only [cut, tinyExponent, maxExponent, precision]
  omega

theorem toRat_ofNat (m : ℕ) : (ofNat m).toRat = (m : ℤ) := by
  simp [toRat, ofNat]

theorem digitCount_lt_mostDigits {m : ℕ} (h : digitCount m ≤ Json.maxIntegerDigits) :
    digitCount m < mostDigits := by
  have hless : Json.maxIntegerDigits < mostDigits := by
    unfold mostDigits
    decide
  omega

theorem isShort_ofNat {m : ℕ} (h : digitCount m ≤ Json.maxIntegerDigits) : (ofNat m).IsShort := by
  have hcount := Nat.le_of_lt (digitCount_lt_mostDigits h)
  exact .inl ⟨Int.le_refl 0, (digitCount_le_iff mostDigits_pos).mp hcount⟩

/-- **A minus keeps 28 digits.** -/
theorem neg?_whole {m : ℕ} (h : digitCount m ≤ Json.maxIntegerDigits) :
    ∃ e, (ofNat m).neg? = some e ∧ e.IsShort ∧ e.toRat = (-(keptDigits m : ℤ) : ℤ) := by
  have hlead : leadingExponent ⟨m != 0, m, 0⟩ < maxExponent := by
    have hcount := digitCount_lt_mostDigits h
    rw [maxExponent_eq]
    simp only [leadingExponent]
    omega
  obtain ⟨e, he⟩ := Option.isSome_iff_exists.mp (fit?_isSome hlead)
  refine ⟨e, he, .of_fit? he, ?_⟩
  have hvalue := toRat_of_fit? he
  have hkept : (kept ⟨m != 0, m, 0⟩ * 10 ^ cut ⟨m != 0, m, 0⟩ : ℕ) = keptDigits m := by
    rw [kept, cut_whole]
    rfl
  rw [zero_add, zpow_natCast] at hvalue
  rw [hvalue, ← hkept]
  by_cases hzero : m = 0
  · subst hzero
    simp [kept, divHalfEven]
  · simp [hzero]

end Decimal

/-! ## A name as a formula -/

/-- The price of a formula that is a single name, which stands for a whole number. -/
def wholePrice (id : String) (n : ℤ) (depth : ℕ) : Except EvaluationFault ℤ :=
  evaluate id [(id, .number (.whole n))] ⟨none, none⟩ depth

theorem substitute_whole {id : String} (hid : IsIdentifier id) (n : ℤ) :
    (substitute id.toList (replacements [(id, .number (.whole n))])).text
      = signedFactor (decide (n < 0)) (digits n.natAbs) := by
  have hnames : ∀ e ∈ [(id, Contribution.number (.whole n))], IsIdentifier e.1 := by
    intro e he
    rwa [List.mem_singleton.mp he]
  have hfactor : (Number.whole n).factor = signedFactor (decide (n < 0)) (digits n.natAbs) :=
    guardMinus_integerText n
  have hnumber : IsNumberFactor (Number.whole n).factor := Number.factor_cases rfl
  rw [substitute_text, replaceTokens_word (names_replacements hnames).words hid.1,
    lookup_replacements, OrderedMap.find?, List.lookup_cons_self, Option.map_some, Option.getD_some]
  show zeroed (Number.whole n).factor = _
  rw [hnumber.zeroed_eq_self, hfactor]

/-- A minus between parentheses: two signs are open at once. -/
theorem evaluateText_minus {ds : List Char} {d : Decimal} (hds : IsNumber ds)
    (hliteral : Parser.literal ds = .literal d) {depth : ℕ} (hdepth : 2 ≤ depth) :
    evaluateText ('(' :: ('-' :: ds ++ [')'])) depth = d.neg?.elim (.error .overflow) .ok := by
  have hnumber : Derives .factor (.literal d) [.number ds] := by
    rw [← hliteral]
    exact .number ds
  have hminus : Spells ('-' :: ds) [.operator .sub, .number ds] := .sign rfl (.of_isNumber hds)
  have hgroup : Derives .factor (.group (.negate (.literal d))) _ :=
    .group (.ofProduct (.ofFactor (.negate hnumber)))
  rw [evaluateText_of_spells hminus.parenthesized (.ofProduct (.ofFactor hgroup)) hdepth]
  have hnegated : (Tree.group (.negate (.literal d))).evaluate
      = d.neg?.elim (.error .overflow) .ok := rfl
  rw [hnegated]
  cases d.neg? <;> rfl

/-- The value of a whole number as it is written: exact, or what a minus in front of it leaves. -/
theorem evaluateText_signedFactor (neg : Bool) (m : ℕ) {depth : ℕ} (hdepth : 2 ≤ depth) :
    evaluateText (signedFactor neg (digits m)) depth
      = if neg then (Decimal.ofNat m).neg?.elim (.error .overflow) .ok else .ok (.ofNat m) := by
  have hliteral : Parser.literal (digits m) = .literal (.ofNat m) := literal_digits m
  cases neg with
  | false =>
    have hnumber : Derives .factor (.literal (.ofNat m)) [.number (digits m)] := by
      rw [← hliteral]
      exact .number (digits m)
    show evaluateText (digits m) depth = _
    rw [evaluateText_of_spells (.of_isNumber (isNumber_digits m)) (.ofProduct (.ofFactor hnumber))
      (Nat.zero_le _)]
    rfl
  | true => exact evaluateText_minus (isNumber_digits m) hliteral hdepth

theorem wholePrice_of_value {id : String} (hid : IsIdentifier id) {n : ℤ} {depth : ℕ} {d : Decimal}
    (hvalue : evaluateText (signedFactor (decide (n < 0)) (digits n.natAbs)) depth = .ok d)
    (hshort : d.IsShort) {price : ℤ} (hprice : d.toRat = price) :
    wholePrice id n depth = .ok price := by
  rw [← substitute_whole hid] at hvalue
  have hrounded := Decimal.toPrice_of_isInRange hshort.isInRange
  rw [hprice, nearestAway_intCast] at hrounded
  exact bind_eq_ok_iff.mpr ⟨d, hvalue, bind_eq_ok_iff.mpr ⟨price, hrounded, rfl⟩⟩

/-- **The price of a whole number.** -/
theorem wholePrice_eq {id : String} (hid : IsIdentifier id) {n : ℤ}
    (hn : digitCount n.natAbs ≤ Json.maxIntegerDigits) {depth : ℕ} (hdepth : 2 ≤ depth) :
    wholePrice id n depth = .ok (if n < 0 then -(keptDigits n.natAbs : ℤ) else n) := by
  have hvalue := evaluateText_signedFactor (decide (n < 0)) n.natAbs hdepth
  by_cases hneg : n < 0
  · obtain ⟨e, he, hshort, hrat⟩ := Decimal.neg?_whole hn
    rw [if_pos (decide_eq_true hneg), he] at hvalue
    rw [if_pos hneg]
    exact wholePrice_of_value hid hvalue hshort hrat
  · have hrat := Decimal.toRat_ofNat n.natAbs
    rw [Int.natAbs_of_nonneg (Int.not_lt.mp hneg)] at hrat
    rw [if_neg (by simpa using hneg)] at hvalue
    rw [if_neg hneg]
    exact wholePrice_of_value hid hvalue (Decimal.isShort_ofNat hn) hrat

/-- **Which whole numbers are priced as themselves.** All that are not negative, and of the negative
ones those whose digits behind the first 28 are zeros; any other has the rounded number as its
price. So a number and its opposite have opposite prices exactly if there is nothing to round. -/
theorem wholePrice_exactly {id : String} (hid : IsIdentifier id) {n : ℤ}
    (hn : n.natAbs < 10 ^ Json.maxIntegerDigits) {depth : ℕ} (hdepth : 2 ≤ depth) :
    wholePrice id n depth = .ok (if n < 0 then -(keptDigits n.natAbs : ℤ) else n)
      ∧ (wholePrice id n depth = .ok n
        ↔ 0 ≤ n ∨ 10 ^ (digitCount n.natAbs - Decimal.precision) ∣ n.natAbs)
      ∧ (wholePrice id (-n) depth = (wholePrice id n depth).map (-·)
        ↔ 10 ^ (digitCount n.natAbs - Decimal.precision) ∣ n.natAbs) := by
  have hcount : digitCount n.natAbs ≤ Json.maxIntegerDigits :=
    (digitCount_le_iff (by decide)).mpr hn
  have hprice := wholePrice_eq hid hcount hdepth
  have hopposite := wholePrice_eq hid (n := -n) (by rwa [Int.natAbs_neg]) hdepth
  rw [Int.natAbs_neg] at hopposite
  refine ⟨hprice, ?_, ?_⟩
  · rw [hprice, ← keptDigits_eq_self_iff, Except.ok.injEq]
    split <;> omega
  · rw [hprice, hopposite, ← keptDigits_eq_self_iff]
    show Except.ok (if -n < 0 then -(keptDigits n.natAbs : ℤ) else -n)
      = Except.ok (-(if n < 0 then -(keptDigits n.natAbs : ℤ) else n)) ↔ _
    rw [Except.ok.injEq]
    by_cases hzero : n = 0
    · subst hzero
      decide
    · split <;> split <;> omega

/-- A one with thirty zeros is priced as itself, and so is its opposite. -/
theorem wholePrice_exactly_round :
    wholePrice "sqft" (10 ^ 30) defaultDepth = .ok (10 ^ 30)
      ∧ wholePrice "sqft" (-10 ^ 30) defaultDepth = .ok (-10 ^ 30) := by
  have hbound : (10 ^ 30 : ℤ).natAbs < 10 ^ Json.maxIntegerDigits := by
    have hlong : 30 < Json.maxIntegerDigits := by decide
    generalize Json.maxIntegerDigits = k at hlong ⊢
    exact Nat.pow_lt_pow_right (by decide) hlong
  have hid : IsIdentifier "sqft" := by decide
  obtain ⟨-, hself, hopposite⟩ := wholePrice_exactly hid hbound (show 2 ≤ defaultDepth by decide)
  have hprice := hself.mpr (.inl (by decide))
  refine ⟨hprice, ?_⟩
  rw [hopposite.mpr (by decide), hprice]
  rfl

/-- **A long negative number is not priced as itself**: of 29 digits the last one is lost. -/
theorem wholePrice_long_negative :
    wholePrice "x" (-10000000000000000000000000001) defaultDepth
      = .ok (-10000000000000000000000000000) := by
  have hcount : digitCount (-10000000000000000000000000001 : ℤ).natAbs ≤ Json.maxIntegerDigits := by
    rw [Int.natAbs_neg]
    decide
  exact (wholePrice_eq (by decide) hcount (show 2 ≤ defaultDepth by decide)).trans (by decide)

end Tariff

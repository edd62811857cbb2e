import Tariff.Pricing
import Tariff.Proofs.Expression.Composition
import Tariff.Proofs.Numeral.Digits

/-!
# Stages of a price

`Formula.calculate` is one run through several stages. Here each stage has a name: what is
contributed (`coerced`), what the expression becomes (`filledIn`), its value (`valueUnder`) and the
whole number next to it (`roundedUnder`). `calculate_cases` puts them together: on a stack that is
high enough there is a result, or a fault of the evaluation, or a number with more digits than are
written.
-/

namespace Tariff

open Expression Numeral

/-! ## Bounds on what is written -/

theorem isWritable_iff {n : Int} : isWritable n = true ↔ n.natAbs < 10 ^ Json.maxIntegerDigits := by
  rw [isWritable, decide_eq_true_iff, digitCount_le_iff (by decide)]

namespace Formula

/-! ## The stages -/

/-- What the variables contribute under some answers, and which answers do not fit. -/
def coerced (f : Formula) (answers : Answers) : Coerced :=
  tokenMap f.questions (resolve f.questions answers).effective

/-- The expression with its tokens replaced. -/
def filledIn (f : Formula) (answers : Answers) : Substituted :=
  substitute f.expression.toList (replacements (f.coerced answers).contributions)

/-- The value of the expression. -/
def valueUnder (f : Formula) (answers : Answers) (depth : Nat) : Except EvaluationFault Decimal :=
  evaluateText (f.filledIn answers).text depth

/-- The value of the expression as a whole number, before it is moved into the range. -/
def roundedUnder (f : Formula) (answers : Answers) (depth : Nat) : Except EvaluationFault Int :=
  f.valueUnder answers depth >>= Decimal.toPrice

/-- What the customer may be told. -/
def noticesUnder (f : Formula) (answers : Answers) : List Notice :=
  (resolve f.questions answers).issues.map .unresolved
    ++ (f.coerced answers).issues.map .misfit
    ++ (f.filledIn answers).unknown.map .unknownName

/-- What is reported of the way to a price. -/
def traceUnder (f : Formula) (answers : Answers) (value : Decimal) (rounded : Int) :
    List TraceStep :=
  let tokens := (f.coerced answers).contributions
  let (price, clamped) := f.range.clamp rounded
  [⟨"Formula", "Pricing '" ++ f.title ++ "'", f.expression⟩]
    ++ (resolve f.questions answers).trace
    ++ [⟨"Token Map", "Coerced " ++ toString tokens.length ++ " tokens", tokensText tokens⟩,
      ⟨"Substitution", "Expression after substitution",
        String.ofList (f.filledIn answers).text⟩,
      ⟨"Evaluation", "Raw result", String.ofList value.factor⟩,
      ⟨"Rounding", "Rounded half away from zero", integerText rounded⟩]
    ++ clampTrace f.range price clamped
    ++ [⟨"Price", "Final price", integerText price⟩]

/-- The result that comes of a value and the whole number next to it. -/
def resultUnder (f : Formula) (answers : Answers) (value : Decimal) (rounded : Int) :
    PriceResult where
  formulaId := f.id
  price := (f.range.clamp rounded).1
  resolution := resolve f.questions answers
  tokens := (f.coerced answers).contributions
  substituted := String.ofList (f.filledIn answers).text
  value := value
  rounded := rounded
  clamped := (f.range.clamp rounded).2
  notices := f.noticesUnder answers
  trace := f.traceUnder answers value rounded

/-- A whole number and the price that it is moved to are both short enough to be written. -/
def IsShown (f : Formula) (rounded : Int) : Prop :=
  rounded.natAbs < 10 ^ Json.maxIntegerDigits
    ∧ (f.range.clamp rounded).1.natAbs < 10 ^ Json.maxIntegerDigits

theorem isShown_iff {f : Formula} {rounded : Int} :
    f.IsShown rounded
      ↔ (!isWritable rounded || !isWritable (f.range.clamp rounded).1) = false := by
  rw [Bool.or_eq_false_iff, Bool.not_eq_false', Bool.not_eq_false', isWritable_iff, isWritable_iff]
  rfl

/-! ## Outcomes -/

variable {f : Formula} {answers : Answers} {depth : Nat}

theorem calculate_of_value_error {fault : EvaluationFault}
    (h : f.valueUnder answers depth = .error fault) :
    f.calculate answers depth = .error (.evaluation fault) := by
  have hstage : evaluateText (f.filledIn answers).text depth = .error fault := h
  unfold calculate
  -- nothing before this stage can fail
  show (evaluateText (f.filledIn answers).text depth).mapError _ >>= _ = _
  rw [hstage]
  rfl

/-- Once there is a value, it only matters how it is rounded and whether the outcome is short. -/
theorem calculate_of_value {value : Decimal} (h : f.valueUnder answers depth = .ok value) :
    f.calculate answers depth
      = value.toPrice.mapError .evaluation >>= fun rounded =>
        if !isWritable rounded || !isWritable (f.range.clamp rounded).1 then .error .longPrice
        else .ok (f.resultUnder answers value rounded) := by
  have hstage : evaluateText (f.filledIn answers).text depth = .ok value := h
  unfold calculate
  show (evaluateText (f.filledIn answers).text depth).mapError _ >>= _ = _
  rw [hstage]
  rfl

theorem roundedUnder_of_value {value : Decimal} (h : f.valueUnder answers depth = .ok value) :
    f.roundedUnder answers depth = value.toPrice := by
  rw [roundedUnder, h]
  rfl

theorem calculate_of_rounded_error {fault : EvaluationFault}
    (h : f.roundedUnder answers depth = .error fault) :
    f.calculate answers depth = .error (.evaluation fault) := by
  cases hvalue : f.valueUnder answers depth with
  | error e =>
    rw [roundedUnder, hvalue] at h
    cases h
    exact calculate_of_value_error hvalue
  | ok value =>
    rw [roundedUnder_of_value hvalue] at h
    rw [calculate_of_value hvalue, h]
    rfl

/-- A number that is too long is a fault of its own. -/
theorem calculate_of_not_isShown {rounded : Int} (h : f.roundedUnder answers depth = .ok rounded)
    (hlong : ¬ f.IsShown rounded) : f.calculate answers depth = .error .longPrice := by
  obtain ⟨value, hvalue, hprice⟩ := bind_eq_ok_iff.mp h
  rw [isShown_iff, Bool.not_eq_false] at hlong
  rw [calculate_of_value hvalue, hprice]
  exact if_pos hlong

/-- A value that is rounded to a short number has a result. -/
theorem calculate_of_isShown {value : Decimal} {rounded : Int}
    (hvalue : f.valueUnder answers depth = .ok value) (hprice : value.toPrice = .ok rounded)
    (hshort : f.IsShown rounded) :
    f.calculate answers depth = .ok (f.resultUnder answers value rounded) := by
  rw [isShown_iff] at hshort
  rw [calculate_of_value hvalue, hprice]
  exact if_neg (by simp [hshort])

/-- **What may come of a calculation**: the evaluation fails, the outcome is too long, or there is a
result. -/
theorem calculate_cases (f : Formula) (answers : Answers) (depth : Nat) :
    (∃ fault, f.roundedUnder answers depth = .error fault
        ∧ f.calculate answers depth = .error (.evaluation fault))
      ∨ (∃ rounded, f.roundedUnder answers depth = .ok rounded ∧ ¬ f.IsShown rounded
        ∧ f.calculate answers depth = .error .longPrice)
      ∨ ∃ value rounded, f.valueUnder answers depth = .ok value ∧ value.toPrice = .ok rounded
        ∧ f.roundedUnder answers depth = .ok rounded ∧ f.IsShown rounded
        ∧ f.calculate answers depth = .ok (f.resultUnder answers value rounded) := by
  cases h : f.roundedUnder answers depth with
  | error fault => exact Or.inl ⟨fault, rfl, calculate_of_rounded_error h⟩
  | ok rounded =>
    by_cases hshort : f.IsShown rounded
    · obtain ⟨value, hvalue, hprice⟩ := bind_eq_ok_iff.mp h
      exact Or.inr (Or.inr ⟨value, rounded, hvalue, hprice, rfl, hshort,
        calculate_of_isShown hvalue hprice hshort⟩)
    · exact Or.inr (Or.inl ⟨rounded, rfl, hshort, calculate_of_not_isShown h hshort⟩)

/-- From the expression that is filled in, nothing but the range leads to the outcome: two formulas
with the same one and the same range have the same fault, or a result from the same value. -/
theorem calculate_of_filledIn {g : Formula} {others : Answers} (hrange : g.range = f.range)
    (hfilled : f.filledIn answers = g.filledIn others) (depth : Nat) :
    (∃ fault, f.calculate answers depth = .error fault ∧ g.calculate others depth = .error fault)
      ∨ ∃ value rounded, f.calculate answers depth = .ok (f.resultUnder answers value rounded)
        ∧ g.calculate others depth = .ok (g.resultUnder others value rounded) := by
  have hvalues : f.valueUnder answers depth = g.valueUnder others depth := by
    rw [valueUnder, valueUnder, hfilled]
  have hroundeds : f.roundedUnder answers depth = g.roundedUnder others depth := by
    rw [roundedUnder, roundedUnder, hvalues]
  have hshown : ∀ rounded, g.IsShown rounded ↔ f.IsShown rounded := by
    intro rounded
    rw [IsShown, IsShown, hrange]
  rcases calculate_cases f answers depth with ⟨fault, hrounded, hf⟩ | ⟨rounded, hrounded, hlong, hf⟩
    | ⟨value, rounded, hvalue, hprice, -, hshort, hf⟩
  · rw [hroundeds] at hrounded
    exact Or.inl ⟨_, hf, calculate_of_rounded_error hrounded⟩
  · rw [hroundeds] at hrounded
    exact Or.inl ⟨_, hf, calculate_of_not_isShown hrounded (mt (hshown rounded).mp hlong)⟩
  · rw [hvalues] at hvalue
    exact Or.inr ⟨value, rounded, hf,
      calculate_of_isShown hvalue hprice ((hshown rounded).mpr hshort)⟩

/-! ## What an outcome tells -/

theorem roundedUnder_of_calculate_error {fault : EvaluationFault}
    (h : f.calculate answers depth = .error (.evaluation fault)) :
    f.roundedUnder answers depth = .error fault := by
  rcases calculate_cases f answers depth with ⟨e, hrounded, hcalculate⟩ | ⟨_, _, _, hcalculate⟩
    | ⟨_, _, _, _, _, _, hcalculate⟩
  -- two of the three outcomes are not the one at hand
  all_goals
    rw [h] at hcalculate
    cases hcalculate
  exact hrounded

theorem exists_not_isShown (h : f.calculate answers depth = .error .longPrice) :
    ∃ rounded, f.roundedUnder answers depth = .ok rounded ∧ ¬ f.IsShown rounded := by
  rcases calculate_cases f answers depth with ⟨_, _, hcalculate⟩
    | ⟨rounded, hrounded, hlong, hcalculate⟩ | ⟨_, _, _, _, _, _, hcalculate⟩
  all_goals
    rw [h] at hcalculate
    cases hcalculate
  exact ⟨rounded, hrounded, hlong⟩

theorem exists_isShown {r : PriceResult} (h : f.calculate answers depth = .ok r) :
    ∃ value rounded, f.roundedUnder answers depth = .ok rounded ∧ f.IsShown rounded
      ∧ r = f.resultUnder answers value rounded := by
  rcases calculate_cases f answers depth with ⟨_, _, hcalculate⟩ | ⟨_, _, _, hcalculate⟩
    | ⟨value, rounded, _, _, hrounded, hshort, hcalculate⟩
  all_goals
    rw [h] at hcalculate
    cases hcalculate
  exact ⟨value, rounded, hrounded, hshort, rfl⟩

/-! ## A number that is written out -/

/-- A formula without variables whose expression is a number. -/
def ofNumber (n : Nat) (range : PriceRange) : Formula where
  id := "number"
  name := ""
  expression := String.ofList (digits n)
  questions := []
  range := range

theorem toPrice_whole (n : Nat) (h : digitCount n < 1000000) :
    Decimal.toPrice ⟨false, n, 0⟩ = .ok (n : Int) := by
  have hround : Decimal.roundHalfAway ⟨false, n, 0⟩ = (n : Int) := by
    rcases Nat.eq_zero_or_pos n with rfl | hpos
    · rfl
    · simp [Decimal.roundHalfAway, Nat.pos_iff_ne_zero.mp hpos]
  have hlead : Decimal.leadingExponent ⟨false, n, 0⟩ = digitCount n - 1 := by
    simp [Decimal.leadingExponent]
  have hinteger : Decimal.toInteger? ⟨false, n, 0⟩ (Decimal.widePrecision ⟨false, n, 0⟩)
      = some (n : Int) := by
    rw [Decimal.toInteger?, Decimal.widePrecision, hlead, hround, Decimal.maxExponent]
    dsimp only
    split
    · next hzero => rw [hzero, Int.natCast_zero]
    · rw [if_neg (by omega), Int.natAbs_natCast, if_neg (by omega)]
  rw [Decimal.toPrice, hinteger]
  rfl

theorem filledIn_ofNumber (n : Nat) (range : PriceRange) (answers : Answers) :
    ((ofNumber n range).filledIn answers).text = digits n := by
  have htokens : Replacements.Names [] := by simp [Replacements.Names]
  -- there is no token, and a number holds no name that would become a zero
  show (substitute (String.ofList (digits n)).toList []).text = digits n
  rw [String.toList_ofList]
  exact substitute_number htokens (isNumber_digits n)

theorem roundedUnder_ofNumber {n : Nat} (h : digitCount n < 1000000) (range : PriceRange)
    (answers : Answers) (depth : Nat) :
    (ofNumber n range).roundedUnder answers depth = .ok (n : Int) := by
  have hvalue : (ofNumber n range).valueUnder answers depth = .ok ⟨false, n, 0⟩ := by
    rw [valueUnder, filledIn_ofNumber, evaluateText, ofText_digits]
    rfl
  rw [roundedUnder_of_value hvalue, toPrice_whole n h]

end Formula

end Tariff

import Tariff.Definition
import Tariff.Proofs.Expression.NumberTexts
import Tariff.Proofs.Outcome

/-!
# Numbers of boxes

What a box contributes is a text, and where a number is stored for it the text of that number. The
way from there to a value is long: a zero says nothing, so that a default takes its place; the text
is put into the expression as it is; and a minus keeps 28 digits. `Variable.box_numbers` says which
numbers arrive at the end of it.
-/

namespace Tariff

open Definition Expression

namespace Number

theorem plain_ofNumber (n : Number) : (Value.ofNumber n).plain = n.text := by
  cases n <;> rfl

theorem given?_ofNumber (n : Number) :
    (Value.ofNumber n).given? = if n.isZero then none else some (.ofNumber n) := by
  cases n <;> rfl

/-- The number that a box contributes where a number is stored for it: a zero leaves the default. -/
def boxed (checked : Bool) (n : Number) : Number :=
  if n.isZero then .whole (if checked then 1 else 0) else n

/-- Whether an expression has exactly the value of a number where its text stands. -/
def IsHonoured : Number → Prop
  | whole n => 0 ≤ n ∨ 10 ^ (Numeral.digitCount n.natAbs - Decimal.precision) ∣ n.natAbs
  | real x => (real x).IsPositional

theorem readBack_eq_iff {n : Number} :
    n.IsHonoured ↔ n.IsPositional ∧ n.readBack = n.decimalValue := by
  cases n with
  -- a binary64 number has so few digits that a minus keeps all of them
  | real x => exact (and_iff_left rfl).symm
  | whole n =>
    show 0 ≤ n ∨ _ ↔ True ∧ ((if n < 0 then -(keptDigits n.natAbs : ℤ) else n : ℤ) : ℚ) = (n : ℚ)
    rw [← keptDigits_eq_self_iff, true_and, Int.cast_inj]
    split <;> omega

theorem isStored_boxed {checked : Bool} {n : Number} (h : n.IsStored) :
    (n.boxed checked).IsStored := by
  have hone : (whole 1).IsStored := show Numeral.digitCount 1 ≤ Json.maxIntegerDigits by decide
  have hzero : (whole 0).IsStored := show Numeral.digitCount 0 ≤ Json.maxIntegerDigits by decide
  unfold boxed
  split
  · cases checked
    · exact hzero
    · exact hone
  · exact h

theorem decimalValue_of_isZero {n : Number} (h : n.isZero = true) : n.decimalValue = 0 := by
  cases n with
  | whole n =>
    rw [decimalValue, beq_iff_eq.mp h]
    rfl
  | real x =>
    cases x with
    | finite neg mant exp =>
      obtain rfl : mant = 0 := beq_iff_eq.mp h
      rw [decimalValue_finite]
      exact Decimal.toRat_of_coeff_eq_zero rfl
    | infinite neg => cases h
    | nan => cases h

theorem isHonoured_of_isZero {n : Number} (h : n.isZero = true) : n.IsHonoured := by
  cases n with
  | whole n => exact .inl (beq_iff_eq.mp h).ge
  | real x =>
    cases x with
    | finite neg mant exp => exact .inl (beq_iff_eq.mp h)
    | infinite neg => cases h
    | nan => cases h

/-- A number of a box is honoured unless it is a zero that is taken for a missing one. -/
theorem boxed_iff {checked : Bool} {n : Number} :
    (n.boxed checked).IsPositional ∧ (n.boxed checked).readBack = n.decimalValue
      ↔ (n.isZero = true → checked = false) ∧ n.IsHonoured := by
  cases hzero : n.isZero with
  | false =>
    rw [boxed, if_neg (by simp [hzero]), ← readBack_eq_iff]
    simp
  | true =>
    have hvalue := decimalValue_of_isZero hzero
    rw [boxed, if_pos hzero, hvalue]
    -- of the two defaults only that of a box that is not checked is a zero
    refine iff_of_eq ?_ |>.trans (and_iff_left (isHonoured_of_isZero hzero)).symm
    cases checked <;> simp [IsPositional, readBack]

end Number

theorem givenText_ofNumber {r : OrderedMap Value} {name : String} {n : Number}
    (h : field r name = .ofNumber n) (checked : Bool) :
    givenText r [name] (if checked then "1" else "0") = (n.boxed checked).text := by
  have hgiven : firstGiven? r [name] = if n.isZero then none else some (.ofNumber n) := by
    rw [firstGiven?, List.findSome?_cons, h, Number.given?_ofNumber]
    cases n.isZero <;> rfl
  rw [givenText, hgiven, Number.boxed]
  split
  · cases checked <;> decide
  · exact n.plain_ofNumber

namespace Variable

variable {v : Variable}

/-- What is read of a stored box. -/
theorem boxTexts_of_ofValue {r : OrderedMap Value} (h : Variable.ofValue (.record r) = .ok v) :
    v.checked = givenText r ["checkedValue"] "1"
      ∧ v.unchecked = givenText r ["uncheckedValue"] "0" := by
  unfold Variable.ofValue at h
  obtain ⟨r', hr, h⟩ := bind_eq_ok_iff.mp h
  obtain ⟨kind, -, h⟩ := bind_eq_ok_iff.mp h
  obtain ⟨options, -, h⟩ := bind_eq_ok_iff.mp h
  obtain ⟨choices, -, h⟩ := bind_eq_ok_iff.mp h
  obtain ⟨least, -, h⟩ := bind_eq_ok_iff.mp h
  obtain ⟨greatest, -, h⟩ := bind_eq_ok_iff.mp h
  obtain ⟨step, -, h⟩ := bind_eq_ok_iff.mp h
  obtain ⟨rule, -, h⟩ := bind_eq_ok_iff.mp h
  cases hr
  cases h
  exact ⟨rfl, rfl⟩

/-- **A number that is stored for a box is honoured if it is no zero in the place of a one, is
written without an exponent, and has no minus in front of more digits than one keeps.** In any other
case the box counts as its default, or as what a minus leaves of the number, or the formula is no
expression. -/
theorem box_numbers {r : OrderedMap Value} (hread : Variable.ofValue (.record r) = .ok v)
    (hkind : v.kind = .checkbox) {c u : Number} (hc : field r "checkedValue" = .ofNumber c)
    (hu : field r "uncheckedValue" = .ofNumber u) (hstored : c.IsStored ∧ u.IsStored)
    (answer : Value)
    {depth : ℕ} (hdepth : 2 ≤ depth) :
    let checked := Answer.isChecked answer
    let n := if checked then c else u
    v.contributions answer = v.contributing (.text (n.boxed checked).text) []
      ∧ ((n.boxed checked).IsPositional →
        ∃ d, v.valueFor answer depth = .ok d ∧ d.toRat = (n.boxed checked).readBack)
      ∧ (¬ (n.boxed checked).IsPositional →
        ∃ place, v.valueFor answer depth = .error (.malformed (.invalidCharacter 'e' place)))
      ∧ ((∃ d, v.valueFor answer depth = .ok d ∧ d.toRat = n.decimalValue)
        ↔ (n.isZero = true → checked = false) ∧ n.IsHonoured) := by
  intro checked n
  obtain ⟨hchecked, hunchecked⟩ := boxTexts_of_ofValue hread
  -- a text that is read is that of the number, or that of the default
  have htext : (if checked then v.checked else v.unchecked) = (n.boxed checked).text := by
    show (if checked then _ else _) = Number.text (Number.boxed checked (if checked then c else u))
    cases checked with
    | true => exact hchecked.trans (givenText_ofNumber hc true)
    | false => exact hunchecked.trans (givenText_ofNumber hu false)
  have hcontributed : v.contributions answer
      = v.contributing (.text (n.boxed checked).text) [] := by
    rw [← htext]
    simp only [contributions, hkind]
    rfl
  have hn : (n.boxed checked).IsStored := by
    refine Number.isStored_boxed ?_
    show (if checked then c else u).IsStored
    split
    · exact hstored.1
    · exact hstored.2
  rw [valueFor_contributing hcontributed]
  obtain ⟨hpositional, hexponent⟩ := Number.evaluate_text hn hdepth
  refine ⟨hcontributed, hpositional, hexponent, ?_⟩
  rw [Number.exists_value_text_iff hn hdepth, Number.boxed_iff]

/-- A box as it is stored. -/
def storedBox (checked unchecked : Value) : OrderedMap Value :=
  [("id", .text "box"), ("type", .text "checkbox"), ("checkedValue", checked),
    ("uncheckedValue", unchecked)]

/-- Two and a half. -/
def storedHalf : Number :=
  .real (.finite false 5629499534213120 (-51))

/-- Two and a half for a box that is checked, and minus three for one that is not. -/
theorem box_numbers_half :
    ∃ v, Variable.ofValue (.record (storedBox (.ofNumber storedHalf) (.int (-3)))) = .ok v
      ∧ ∀ answer, ∃ d, v.valueFor answer defaultDepth = .ok d
        ∧ d.toRat = if Answer.isChecked answer then 5 / 2 else -3 := by
  obtain ⟨v, hread, hkind⟩ : ∃ v,
      Variable.ofValue (.record (storedBox (.ofNumber storedHalf) (.int (-3)))) = .ok v
        ∧ v.kind = .checkbox := ⟨_, rfl, rfl⟩
  refine ⟨v, hread, fun answer => ?_⟩
  have hhalf : storedHalf.IsStored := show 5629499534213120 < 2 ^ 53 by decide
  have hthree : (Number.whole (-3)).IsStored :=
    show Numeral.digitCount 3 ≤ Json.maxIntegerDigits by decide
  have hdepth : 2 ≤ defaultDepth := by decide
  obtain ⟨-, -, -, hhonoured⟩ := box_numbers hread hkind (c := storedHalf) (u := .whole (-3))
    rfl rfl
    ⟨hhalf, hthree⟩ answer hdepth
  have hpositional : Binary64.IsPositional 5629499534213120 (-51) := by decide +kernel
  have hmagnitude : Binary64.magnitude 5629499534213120 (-51) = ⟨false, 25, -1⟩ := by
    decide +kernel
  have hvalue : storedHalf.decimalValue = 5 / 2 := by
    rw [storedHalf, Number.decimalValue_finite, hmagnitude]
    norm_num [Decimal.toRat]
  cases hanswer : Answer.isChecked answer with
  | true =>
    rw [hanswer] at hhonoured
    obtain ⟨d, hd, hdecimal⟩ := hhonoured.mpr ⟨fun h => absurd h (by decide), hpositional⟩
    exact ⟨d, hd, hdecimal.trans hvalue⟩
  | false =>
    rw [hanswer] at hhonoured
    obtain ⟨d, hd, hdecimal⟩ := hhonoured.mpr ⟨fun _ => rfl, .inr (by decide)⟩
    exact ⟨d, hd, hdecimal.trans (by norm_num [Number.decimalValue])⟩

/-- **A zero is not honoured** in the place of a one, nor is a number that is written with an
exponent. -/
theorem box_numbers_lost :
    ∃ v w, Variable.ofValue (.record (storedBox (.int 0) (.int 5))) = .ok v
      ∧ Variable.ofValue (.record
        (storedBox (.float (.finite false 6103515625000000 14)) (.int 0))) = .ok w
      ∧ v.kind = .checkbox ∧ w.kind = .checkbox ∧ Answer.isChecked (.bool true) = true
      ∧ v.valueFor (.bool true) defaultDepth = .ok (.ofNat 1)
      ∧ v.valueFor (.bool false) defaultDepth = .ok (.ofNat 5)
      ∧ w.checked = "1e+20"
      ∧ w.valueFor (.bool true) defaultDepth = .error (.malformed (.invalidCharacter 'e' 2)) := by
  refine ⟨_, _, rfl, rfl, rfl, rfl, rfl, ?_, ?_, ?_, ?_⟩
  · decide
  · decide
  · decide +kernel
  · decide +kernel

end Variable

end Tariff

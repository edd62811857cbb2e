import Tariff.Proofs.Pricing
import Tariff.Proofs.Sample

/-!
# The price on its own

There are two ways from a formula and some answers to a price. `Formula.calculate` reports every
stage on its way and writes out what came of it; `evaluate` is handed the contributions and says
nothing but the price. They are compared with the stages of `Formula.calculate`:

* `plainPrice_eq` — the plain way rounds the same value and moves it into the same range;
* `calculate_agrees` — so both ways give one price, or fail in one way, as long as no integer has to
  be written that is too long for it.
-/

namespace Tariff.Formula

/-- The price as the plain way finds it: from the contributions of the effective values. -/
def plainPrice (f : Formula) (answers : Answers) (depth : Nat) : Except EvaluationFault Int :=
  evaluate f.expression
    (tokenMap f.questions (resolve f.questions answers).effective).contributions f.range depth

/-- Whatever whole number is found, it and the price it is moved to are short enough to be
written. -/
def StaysShort (f : Formula) (answers : Answers) (depth : Nat) : Prop :=
  ∀ rounded, f.roundedUnder answers depth = .ok rounded → f.IsShown rounded

variable {f : Formula} {answers : Answers} {depth : Nat}

/-! ## The plain way by its stages -/

/-- The plain way fills in, evaluates and rounds as the reported one does, and then moves the
number into the range. -/
theorem plainPrice_eq (f : Formula) (answers : Answers) (depth : Nat) :
    f.plainPrice answers depth
      = (f.roundedUnder answers depth).map fun rounded => (f.range.clamp rounded).1 := by
  show evaluateText (f.filledIn answers).text depth >>= (fun value => value.toPrice >>= _) = _
  rw [roundedUnder, valueUnder]
  cases evaluateText (f.filledIn answers).text depth with
  | error fault => rfl
  | ok value =>
    show value.toPrice >>= _ = (value.toPrice).map _
    cases value.toPrice <;> rfl

theorem plainPrice_eq_ok_iff {price : Int} :
    f.plainPrice answers depth = .ok price
      ↔ ∃ rounded, f.roundedUnder answers depth = .ok rounded
        ∧ (f.range.clamp rounded).1 = price := by
  rw [plainPrice_eq, map_eq_ok_iff]

theorem plainPrice_eq_error_iff {fault : EvaluationFault} :
    f.plainPrice answers depth = .error fault ↔ f.roundedUnder answers depth = .error fault := by
  rw [plainPrice_eq]
  cases f.roundedUnder answers depth with
  | error e => exact Iff.rfl
  | ok rounded => simp [Except.map]

/-! ## Both ways -/

theorem exists_result_iff (h : f.StaysShort answers depth) {price : Int} :
    (∃ r, f.calculate answers depth = .ok r ∧ r.price = price)
      ↔ f.plainPrice answers depth = .ok price := by
  rw [plainPrice_eq_ok_iff]
  constructor
  · rintro ⟨r, hr, rfl⟩
    obtain ⟨value, rounded, hrounded, -, rfl⟩ := exists_isShown hr
    exact ⟨rounded, hrounded, rfl⟩
  · rintro ⟨rounded, hrounded, rfl⟩
    obtain ⟨value, hvalue, hprice⟩ := bind_eq_ok_iff.mp hrounded
    exact ⟨_, calculate_of_isShown hvalue hprice (h rounded hrounded), rfl⟩

theorem calculate_eq_error_iff (h : f.StaysShort answers depth) {fault : PricingFault} :
    f.calculate answers depth = .error fault
      ↔ ∃ e, f.plainPrice answers depth = .error e ∧ fault = .evaluation e := by
  simp only [plainPrice_eq_error_iff]
  constructor
  · intro hfault
    cases fault with
    | evaluation e => exact ⟨e, roundedUnder_of_calculate_error hfault, rfl⟩
    | longPrice =>
      -- the number that is too long is the one that was supposed to be short
      obtain ⟨rounded, hrounded, hlong⟩ := exists_not_isShown hfault
      exact absurd (h rounded hrounded) hlong
  · rintro ⟨e, he, rfl⟩
    exact calculate_of_rounded_error he

/-- **The reported way agrees with the plain way.** As long as no integer that is too long has to be
written, a price is calculated exactly if it is the plain price, and a calculation fails exactly if
the plain way fails, with the same fault in the same words. -/
theorem calculate_agrees (h : f.StaysShort answers depth) :
    (∀ price, (∃ r, f.calculate answers depth = .ok r ∧ r.price = price)
        ↔ f.plainPrice answers depth = .ok price)
      ∧ ∀ fault, f.calculate answers depth = .error fault
        ↔ ∃ e, f.plainPrice answers depth = .error e ∧ fault = .evaluation e
          ∧ fault.message = e.message := by
  refine ⟨fun price => exists_result_iff h, fun fault => ?_⟩
  rw [calculate_eq_error_iff h]
  constructor
  · rintro ⟨e, he, rfl⟩
    exact ⟨e, he, rfl, rfl⟩
  · rintro ⟨e, he, hfault, -⟩
    exact ⟨e, he, hfault⟩

/-- A gate is priced by what is left of a fence: a fence of four has a price, moved up to the
least one, and a fence of two divides by zero. -/
theorem calculate_agrees_gate :
    let gate := { Sample.priced "100 / (length - 2)" [Sample.count "length"] with
      range := ⟨some 60, none⟩ }
    ((∃ r, gate.calculate [("length", .int 4)] defaultDepth = .ok r ∧ r.price = 60)
        ∧ gate.plainPrice [("length", .int 4)] defaultDepth = .ok 60)
      ∧ gate.calculate [("length", .text "2")] defaultDepth = .error (.evaluation .divisionByZero)
      ∧ gate.plainPrice [("length", .text "2")] defaultDepth = .error .divisionByZero := by
  intro gate
  have hfound : gate.roundedUnder [("length", .int 4)] defaultDepth = .ok 50 := by decide
  have hfault : gate.roundedUnder [("length", .text "2")] defaultDepth =
      .error .divisionByZero := by
    decide
  have hshort : gate.StaysShort [("length", .int 4)] defaultDepth := by
    intro rounded h
    cases hfound.symm.trans h
    exact isShown_iff.mpr (by decide)
  have hnone : gate.StaysShort [("length", .text "2")] defaultDepth := by
    intro rounded h
    cases hfault.symm.trans h
  have hprice : gate.plainPrice [("length", .int 4)] defaultDepth = .ok 60 := by decide
  have hzero : gate.plainPrice [("length", .text "2")] defaultDepth = .error .divisionByZero := by
    decide
  exact ⟨⟨((calculate_agrees hshort).1 60).mpr hprice, hprice⟩,
    ((calculate_agrees hnone).2 _).mpr ⟨_, hzero, rfl, rfl⟩, hzero⟩

end Tariff.Formula

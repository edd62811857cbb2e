import Tariff.Proofs.Expression.Levels
import Tariff.Proofs.Pricing
import Tariff.Proofs.Readable
import Tariff.Proofs.Sample

/-!
# How a calculation ends

The evaluation of the expression tells how a calculation ends (`Formula.calculate_outcomes`): with a
result, with a fault of the evaluation, for want of a level of the call stack, or because a number
has more digits than are written. A number that is contributed has them only if it was never stored
(`Formula.calculateWithin_of_overlong`).

The number that is too long is found before the price is moved into its range, so a greatest price
does not help against it (`Formula.calculate_longPrice_beyond_max`).
-/

namespace Tariff

open Expression Numeral

namespace Formula

variable {f : Formula} {answers : Answers} {depth levels : Nat}

/-- There are levels for the evaluation of the expression as it is filled in. -/
def Fits (f : Formula) (answers : Answers) (depth levels : Nat) : Prop :=
  TextFits (f.filledIn answers).text depth (levels - 1)

/-- Some number that is contributed has more digits than are written. -/
def IsOverlong (f : Formula) (answers : Answers) : Prop :=
  ∃ t ∈ (f.coerced answers).contributions, t.2.isWritable = false

/-- What is contributed is written down before anything else can fail. -/
theorem calculateWithin_of_overlong (h : f.IsOverlong answers) :
    f.calculateWithin answers depth levels = .error (.fault .longPrice) := by
  obtain ⟨t, ht, hlong⟩ := h
  unfold calculateWithin
  dsimp only
  refine if_pos ?_
  simp only [Bool.not_eq_true', List.all_eq_false, Bool.not_eq_true]
  exact ⟨t, ht, hlong⟩

/-- **Only the evaluation of the expression needs a high stack**, if what is contributed can be
written. -/
theorem calculate_limited
    (hwritable : ((f.coerced answers).contributions.all fun t => t.2.isWritable) = true) :
    Limited (f.Fits answers depth levels) (f.calculate answers depth)
      (f.calculateWithin answers depth levels) := by
  have htext := evaluateText_limited (f.filledIn answers).text depth (levels - 1)
  unfold calculateWithin
  dsimp only
  -- what is contributed is written down before anything is evaluated
  rw [if_neg (by simpa [coerced] using hwritable)]
  by_cases hfits : f.Fits answers depth levels
  · have hwithin := htext.within hfits
    unfold filledIn coerced at hwithin
    rw [hwithin]
    cases evaluateText _ depth <;> exact .of hfits
  · have hbeyond := htext.beyond hfits
    unfold filledIn coerced at hbeyond
    rw [hbeyond]
    exact .of_not hfits

/-- What is contributed can be written if the formula can be stored and the answers are short. -/
theorem calculate_limited_of_isReadable {k : Nat} (hf : f.isReadable k = true)
    (hanswers : ∀ e ∈ answers, e.2.IsShort) :
    Limited (f.Fits answers depth levels) (f.calculate answers depth)
      (f.calculateWithin answers depth levels) :=
  calculate_limited (isWritable_tokenMap hf hanswers)

/-- A result is the same on every stack that it is found on. -/
theorem calculate_of_calculateWithin {r : PriceResult}
    (h : f.calculateWithin answers depth levels = .ok r) : f.calculate answers depth = .ok r := by
  unfold calculateWithin at h
  dsimp only at h
  split at h
  · cases h
  · split at h
    · cases h
    · exact mapError_eq_ok_iff.mp h

theorem not_isShown_iff {rounded : Int} :
    ¬ f.IsShown rounded ↔ 10 ^ Json.maxIntegerDigits ≤ rounded.natAbs
      ∨ 10 ^ Json.maxIntegerDigits ≤ (f.range.clamp rounded).1.natAbs := by
  rw [IsShown, not_and_or, Nat.not_lt, Nat.not_lt]

theorem calculate_eq_longPrice_iff :
    f.calculate answers depth = .error .longPrice
      ↔ ∃ rounded, f.roundedUnder answers depth = .ok rounded ∧ ¬ f.IsShown rounded :=
  ⟨exists_not_isShown, fun ⟨_, hrounded, hlong⟩ => calculate_of_not_isShown hrounded hlong⟩

theorem exists_calculate_eq_ok_iff :
    (∃ r, f.calculate answers depth = .ok r)
      ↔ ∃ rounded, f.roundedUnder answers depth = .ok rounded ∧ f.IsShown rounded := by
  constructor
  · rintro ⟨r, hr⟩
    obtain ⟨value, rounded, hrounded, hshort, -⟩ := exists_isShown hr
    exact ⟨rounded, hrounded, hshort⟩
  · rintro ⟨rounded, hrounded, hshort⟩
    obtain ⟨value, hvalue, hprice⟩ := bind_eq_ok_iff.mp hrounded
    exact ⟨_, calculate_of_isShown hvalue hprice hshort⟩

/-- **A calculation ends in one of four ways, and the evaluation alone tells which.** It comes to a
halt for want of a level exactly if there are not enough of them to evaluate the expression as it is
filled in: with three levels for each parenthesis or minus that may be open, if the expression has a
tree that needs more. Otherwise it ends as on a stack of any height. It fails as the evaluation
does; it has a result if the whole number that is found and the price that this number is moved to
are both short; and it fails because of a number's length if one of them is not. The formula and the
answers may be all that can be stored and that is nested half as deep as there are levels.

An answer that is a whole number of any length could not be stored. It fails the calculation in the
same way if the number is contributed. -/
theorem calculate_outcomes (hf : f.isReadable (levels / 2) = true)
    (hanswers : ∀ e ∈ answers, e.2.isReadable (levels / 2) = true) (depth : Nat) :
    (∀ fault, f.calculateWithin answers depth levels = .error (.fault (.evaluation fault))
        ↔ f.Fits answers depth levels ∧ f.roundedUnder answers depth = .error fault)
      ∧ ((∃ r, f.calculateWithin answers depth levels = .ok r)
        ↔ f.Fits answers depth levels ∧ ∃ rounded, f.roundedUnder answers depth = .ok rounded
          ∧ rounded.natAbs < 10 ^ Json.maxIntegerDigits
          ∧ (f.range.clamp rounded).1.natAbs < 10 ^ Json.maxIntegerDigits)
      ∧ (f.calculateWithin answers depth levels = .error (.fault .longPrice)
        ↔ f.Fits answers depth levels ∧ ∃ rounded, f.roundedUnder answers depth = .ok rounded
          ∧ (10 ^ Json.maxIntegerDigits ≤ rounded.natAbs
            ∨ 10 ^ Json.maxIntegerDigits ≤ (f.range.clamp rounded).1.natAbs))
      ∧ (f.calculateWithin answers depth levels = .error .stack ↔ ¬ f.Fits answers depth levels)
      ∧ (∀ r, f.calculateWithin answers depth levels = .ok r → f.calculate answers depth = .ok r)
      ∧ (Parser.groundCalls + 3 * depth + 1 < levels → (f.Fits answers depth levels
        ↔ ∀ t, Tree.ofText (f.filledIn answers).text depth = .ok t → t.calls + 1 < levels))
      ∧ ∀ others : Answers, (∀ e ∈ others, e.2.isReadable (levels / 2) = true ∨ ∃ n, e.2 = .int n) →
        f.IsOverlong others →
        f.calculateWithin others depth levels = .error (.fault .longPrice) := by
  have hlimited : Limited (f.Fits answers depth levels) (f.calculate answers depth)
      (f.calculateWithin answers depth levels) :=
    calculate_limited_of_isReadable hf fun e he => Value.isShort_of_isReadable (hanswers e he)
  refine ⟨fun fault => ?_, ?_, ?_, hlimited.eq_stack_iff, fun r => calculate_of_calculateWithin,
    fun hlevels => ?_, fun _ _ => calculateWithin_of_overlong⟩
  · rw [hlimited.eq_fault_iff]
    exact and_congr_right fun _ => ⟨roundedUnder_of_calculate_error, calculate_of_rounded_error⟩
  · simp only [hlimited.eq_ok_iff, exists_and_left, exists_calculate_eq_ok_iff]
    rfl
  · rw [hlimited.eq_fault_iff, calculate_eq_longPrice_iff]
    simp only [not_isShown_iff]
  · rw [Fits, textFits_iff (by omega)]
    exact forall₂_congr fun t _ => by omega

/-- Three metres of fence have a price, for which there are levels enough. A fence whose length has
one digit more than is written has none. -/
theorem calculate_outcomes_fence :
    (∃ r, Sample.fence.calculateWithin [("length", .int 3)] defaultDepth defaultLevels = .ok r
      ∧ Sample.fence.calculate [("length", .int 3)] defaultDepth = .ok r)
      ∧ Sample.fence.calculateWithin [("length", .int (10 ^ Json.maxIntegerDigits : Nat))]
        defaultDepth defaultLevels = .error (.fault .longPrice) := by
  have hanswers : ∀ e ∈ [("length", Value.int 3)], e.2.isReadable (defaultLevels / 2) = true :=
    List.forall_mem_singleton.mpr (by decide)
  have hreadable : Sample.fence.isReadable (defaultLevels / 2) = true := by decide
  obtain ⟨-, hresult, -, -, hsame, -, hlong⟩ := calculate_outcomes hreadable hanswers defaultDepth
  have hfits : Sample.fence.Fits [("length", .int 3)] defaultDepth defaultLevels :=
    textFits_of_length (by decide) (by decide +kernel)
  have hrounded : Sample.fence.roundedUnder [("length", .int 3)] defaultDepth = .ok 36 := by
    decide +kernel
  have hshort : (36 : Int).natAbs < 10 ^ Json.maxIntegerDigits := isWritable_iff.mp (by decide)
  obtain ⟨r, hr⟩ := hresult.mpr ⟨hfits, 36, hrounded, hshort, hshort⟩
  refine ⟨⟨r, hr, hsame r hr⟩, hlong _ (List.forall_mem_singleton.mpr (.inr ⟨_, rfl⟩)) ?_⟩
  have hwritten : isWritable (10 ^ Json.maxIntegerDigits : Nat) = false := by
    rw [← Bool.not_eq_true, isWritable_iff, Int.natAbs_natCast]
    exact Nat.lt_irrefl _
  exact ⟨("length", .number (.whole (10 ^ Json.maxIntegerDigits : Nat))), List.mem_cons_self,
    hwritten⟩

/-! ## Beyond the greatest price -/

/-- A number on its own needs one level. -/
theorem fits_ofNumber {n : Nat} {range : PriceRange}
    (hlevels : Parser.groundCalls + 3 * depth + 1 < levels) :
    (ofNumber n range).Fits answers depth levels := by
  refine (textFits_iff (by omega)).mpr fun t ht => ?_
  rw [filledIn_ofNumber, ofText_digits] at ht
  cases ht
  have hground : 1 ≤ Parser.groundCalls := by decide
  show 1 < levels - 1
  omega

/-- **A greatest price is no help**: one more digit than is written is a fault of its own, although
the price would be moved to a thousand. -/
theorem calculate_longPrice_beyond_max :
    (ofNumber (10 ^ Json.maxIntegerDigits) ⟨none, some 1000⟩).calculateWithin [] defaultDepth
      defaultLevels = .error (.fault .longPrice) := by
  have hdigits : digitCount (10 ^ Json.maxIntegerDigits) < 1000000 := by
    have hcount : digitCount (10 ^ Json.maxIntegerDigits) ≤ Json.maxIntegerDigits + 1 :=
      (digitCount_le_iff (Nat.succ_pos _)).mpr
        (Nat.pow_lt_pow_right (by decide) (Nat.lt_succ_self _))
    exact Nat.lt_of_le_of_lt hcount (by decide)
  let f := ofNumber (10 ^ Json.maxIntegerDigits) ⟨none, some 1000⟩
  have hlimited : Limited _ _ (f.calculateWithin [] defaultDepth defaultLevels) :=
    calculate_limited rfl
  refine hlimited.eq_fault_iff.mpr ⟨fits_ofNumber (by decide), ?_⟩
  -- the range would make it a thousand, but the number itself is written first
  refine calculate_of_not_isShown (roundedUnder_ofNumber hdigits _ _ _) fun hshown => ?_
  exact Nat.lt_irrefl _ hshown.1

end Formula

end Tariff

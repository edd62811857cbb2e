import Tariff.Proofs.CleanReport
import Tariff.Proofs.LoneToken
import Tariff.Proofs.Numeral.WholeBinary64
import Tariff.Proofs.Sample
import Tariff.Proofs.WholeNumbers

/-!
# Numbers that are typed

A number may be given as an integer, which is taken as it is, or typed as a text, which is read as a
binary64 number. So a text that spells an integer has the price of the integer that is left of it in
53 bits (`Variable.typed_number_priced`): the same price where the integer has no more bits than
these.
-/

namespace Tariff

open Numeral Expression Text

/-! ## What an answer states -/

theorem Number.factor_real_of_toInt? {x : Binary64} {n : ℤ} (h : x.toInt? = some n) :
    (Number.real x).factor = (Number.whole n).factor := by
  simp only [Number.factor, h]

namespace Answer

theorem isEmpty_of_number? {answer : Value} {n : Number} (h : number? answer = some n) :
    isEmpty answer = false := by
  cases answer with
  | bool b | int m | float x => rfl
  | text s =>
    rw [← Bool.not_eq_true]
    intro hblank
    have hnil : trim s.toList = [] := List.isEmpty_iff.mp hblank
    have hnone : Decimal.read? [] = none := by decide
    rw [number?, hnil, hnone] at h
    cases h
  | null | list items | record fields => cases h

/-- An accepted text states the binary64 number nearest to the decimal that it spells. -/
theorem number?_text {s : String} {d : Decimal} (hread : Decimal.read? (trim s.toList) = some d)
    (haccepted : (number? (.text s)).isSome = true) :
    (Binary64.ofDecimal d).isFinite = true
      ∧ number? (.text s) = some (.real (Binary64.ofDecimal d)) := by
  have hstated : number? (.text s) = if (Binary64.ofDecimal d).isFinite then
      some (.real (Binary64.ofDecimal d)) else none := by
    rw [number?, hread]
    rfl
  rw [hstated] at haccepted ⊢
  cases hfinite : (Binary64.ofDecimal d).isFinite with
  | true => exact ⟨rfl, rfl⟩
  | false =>
    rw [hfinite] at haccepted
    cases haccepted

end Answer

/-- An integer in the range of binary64 numbers has few digits, and so has what is kept of it. -/
theorem digitCount_of_inRange {d : Decimal} {n : ℤ} (hvalue : d.toRat = n)
    (hrange : Binary64.InRange d) :
    digitCount n.natAbs ≤ Json.maxIntegerDigits
      ∧ digitCount (keptBits n.natAbs) ≤ Json.maxIntegerDigits := by
  have hpower : 0 < 10 ^ (-d.exp).toNat := Nat.pow_pos (by decide)
  have hbound : n.natAbs < Binary64.bound := by
    rw [Binary64.InRange, Decimal.natAbs_of_toRat hvalue] at hrange
    exact Nat.lt_of_mul_lt_mul_right hrange
  have hkept : keptBits n.natAbs ≤ 2 * n.natAbs := by
    by_cases hzero : n.natAbs = 0
    · rw [hzero]
      decide
    · exact (keptBits_bounds hzero).2
  -- all binary64 numbers have fewer digits than a document may write
  obtain ⟨k, hk, hlimit⟩ : ∃ k, 309 ≤ k ∧ Json.maxIntegerDigits = k + 1 := ⟨4299, by decide, rfl⟩
  have hlong : 2 * Binary64.bound ≤ 10 ^ (k + 1) := calc
    2 * Binary64.bound ≤ 10 * 10 ^ k := Nat.mul_le_mul (by decide) (Binary64.bound_le hk)
    _ = 10 ^ (k + 1) := (Nat.pow_succ' ..).symm
  have hcount : ∀ {m : ℕ}, m < 2 * Binary64.bound → digitCount m ≤ Json.maxIntegerDigits := by
    intro m hm
    rw [hlimit, digitCount_le_iff (Nat.succ_pos k)]
    exact hm.trans_le hlong
  exact ⟨hcount (by omega), hcount (by omega)⟩

/-! ## Prices of numeric variables -/

namespace Variable

variable {v : Variable} {answer : Value}

theorem contributions_eq_numericContribution (hkind : v.kind.isNumeric = true) (answer : Value) :
    v.contributions answer = v.numericContribution answer := by
  unfold contributions
  cases hv : v.kind with
  | number | stepper | slider => rfl
  | text | checkbox | dropdown | multipleChoice | select =>
    rw [hv] at hkind
    cases hkind

theorem contributions_of_number? (hkind : v.kind.isNumeric = true) {n : Number}
    (h : Answer.number? answer = some n) :
    v.contributions answer = v.contributing (.number n) [] := by
  rw [contributions_eq_numericContribution hkind, numericContribution,
    if_neg (by simp [Answer.isEmpty_of_number? h]), h]

/-- A number is priced by how it is written. -/
theorem priceFor_of_number? (hkind : v.kind.isNumeric = true) {n : Number}
    (h : Answer.number? answer = some n) (depth : ℕ) :
    v.priceFor answer depth = evaluateText n.factor depth >>= Decimal.toPrice := by
  rw [priceFor_contributing (contributions_of_number? hkind h),
    Contribution.writtenOut_number (isFinite_of_number? h)]

theorem priceFor_int (hkind : v.kind.isNumeric = true) {n : ℤ}
    (hn : digitCount n.natAbs ≤ Json.maxIntegerDigits) {depth : ℕ} (hdepth : 2 ≤ depth) :
    v.priceFor (.int n) depth = .ok (if n < 0 then -(keptDigits n.natAbs : ℤ) else n) := by
  have hid : IsIdentifier "x" := by decide
  have hprice : wholePrice "x" n depth = _ := evaluate_lone "x" (.number (.whole n)) depth
  rw [← wholePrice_eq hid hn hdepth, hprice, priceFor_of_number? hkind rfl,
    Contribution.writtenOut_number rfl]

/-- **A typed integer has the price of what is left of it in 53 bits**, however it is spelled. That
is the price of the integer itself where it is a binary64 number; where it is not, only a negative
one can have this price, if its minus rounds both to the same 28 digits. -/
theorem typed_number_priced (hkind : v.kind.isNumeric = true) {s : String} {d : Decimal} {n : ℤ}
    (hread : Decimal.read? (trim s.toList) = some d) (hvalue : d.toRat = n)
    (haccepted : (Answer.number? (.text s)).isSome = true) (depth : ℕ) :
    v.priceFor (.text s) depth = v.priceFor (.int (keptWhole n)) depth
      ∧ (2 ^ (n.natAbs.log2 - 52) ∣ n.natAbs →
        v.priceFor (.text s) depth = v.priceFor (.int n) depth)
      ∧ (n.natAbs ≤ 2 ^ 53 → v.priceFor (.text s) depth = v.priceFor (.int n) depth)
      ∧ (2 ≤ depth →
        v.priceFor (.int n) depth = .ok (if n < 0 then -(keptDigits n.natAbs : ℤ) else n)
        ∧ v.priceFor (.text s) depth
          = .ok (if n < 0 then -(keptDigits (keptBits n.natAbs) : ℤ) else keptBits n.natAbs)
        ∧ (v.priceFor (.text s) depth = v.priceFor (.int n) depth
          ↔ 2 ^ (n.natAbs.log2 - 52) ∣ n.natAbs
            ∨ n < 0 ∧ keptDigits (keptBits n.natAbs) = keptDigits n.natAbs)) := by
  obtain ⟨hfinite, hstated⟩ := Answer.number?_text hread haccepted
  have hwhole : (Binary64.ofDecimal d).toInt? = some (keptWhole n) :=
    Binary64.toInt?_ofDecimal hvalue hfinite
  have hkept : v.priceFor (.text s) depth = v.priceFor (.int (keptWhole n)) depth := by
    rw [priceFor_of_number? hkind hstated, priceFor_of_number? hkind rfl,
      Number.factor_real_of_toInt? hwhole]
  have hexact : 2 ^ (n.natAbs.log2 - 52) ∣ n.natAbs →
      v.priceFor (.text s) depth = v.priceFor (.int n) depth := by
    intro hbits
    rw [hkept, keptWhole_eq_self_iff.mpr hbits]
  refine ⟨hkept, hexact, fun hsmall => hexact (keptBits_eq_self_iff.mp (keptBits_of_le hsmall)),
    fun hdepth => ?_⟩
  obtain ⟨hcount, hcountKept⟩ :=
    digitCount_of_inRange hvalue ((Binary64.isFinite_ofDecimal_iff d).mp hfinite)
  have hint := priceFor_int hkind hcount hdepth
  have htext := priceFor_int hkind (n := keptWhole n) (by rwa [natAbs_keptWhole]) hdepth
  rw [← hkept, natAbs_keptWhole] at htext
  have hpriced : (if keptWhole n < 0 then -(keptDigits (keptBits n.natAbs) : ℤ) else keptWhole n)
      = if n < 0 then -(keptDigits (keptBits n.natAbs) : ℤ) else keptBits n.natAbs := by
    by_cases hneg : n < 0
    · rw [if_pos hneg, if_pos (keptWhole_neg_iff.mpr hneg)]
    · rw [if_neg hneg, if_neg (mt keptWhole_neg_iff.mp hneg), keptWhole, if_neg hneg]
  rw [hpriced] at htext
  refine ⟨hint, htext, ?_⟩
  rw [hint, htext, Except.ok.injEq, ← keptBits_eq_self_iff]
  -- only a minus rounds: a number without one is priced with all its digits
  constructor
  · split
    · next hneg => exact fun h => .inr ⟨hneg, by omega⟩
    · exact fun h => .inl (by omega)
  · rintro (hbits | ⟨hneg, hdigits⟩)
    · rw [hbits]
      split <;> omega
    · rw [if_pos hneg, if_pos hneg, hdigits]

/-- An even number of 54 bits is a binary64 number, also with an exponent. -/
theorem typed_number_priced_even :
    Sample.length.priceFor (.text " -9.007199254740994e+15 ") defaultDepth = .ok (-9007199254740994)
      ∧ Sample.length.priceFor (.int (-9007199254740994)) defaultDepth
        = .ok (-9007199254740994) := by
  have hread : Decimal.read? (trim " -9.007199254740994e+15 ".toList)
      = some ⟨true, 9007199254740994, 0⟩ := by decide
  have hvalue : Decimal.toRat ⟨true, 9007199254740994, 0⟩ = (-9007199254740994 : ℤ) := by
    norm_num [Decimal.toRat]
  have haccepted : (Answer.number? (.text " -9.007199254740994e+15 ")).isSome = true := by
    decide +kernel
  obtain ⟨-, hexact, -, hprices⟩ :=
    typed_number_priced (v := Sample.length) rfl hread hvalue haccepted defaultDepth
  obtain ⟨hint, -, -⟩ := hprices (by decide)
  have hprice := hint.trans (show _ = .ok (-9007199254740994) by decide +kernel)
  exact ⟨(hexact (by decide +kernel)).trans hprice, hprice⟩

/-- **A typed integer of 54 bits is not priced as itself** if its last bit is one. -/
theorem typed_number_odd :
    Decimal.read? (trim "9007199254740993".toList) = some ⟨false, 9007199254740993, 0⟩
      ∧ Decimal.toRat ⟨false, 9007199254740993, 0⟩ = (9007199254740993 : ℤ)
      ∧ (Answer.number? (.text "9007199254740993")).isSome = true
      ∧ Sample.length.priceFor (.text "9007199254740993") defaultDepth = .ok 9007199254740992
      ∧ Sample.length.priceFor (.int 9007199254740993) defaultDepth = .ok 9007199254740993 := by
  refine ⟨by decide, by norm_num [Decimal.toRat], by decide +kernel, ?_, ?_⟩
  · decide +kernel
  · decide +kernel

end Variable

end Tariff

import Mathlib.Algebra.Group.Nat.Defs
import Mathlib.Data.List.Basic
import Tariff.Numeral.Digits

/-!
# Digits of numbers

The row of digits of a number spells that number (`ofDigits_digits`), zeros in front of a row do not
count (`ofDigits_zeros_append`), and the count of digits, which is found by halving, is the length
of the row (`digitCount_eq_length`). So a number has at most `k` digits exactly if it is below
`10 ^ k` (`digitCount_le_iff`).
-/

namespace Tariff.Numeral

open Text

/-! ## Rows of digits -/

theorem Reading.value_add (r : Reading) (c : Char) :
    (r.add c).value = 10 * r.value + (digitValue? c).getD 0 := by
  unfold Reading.add
  dsimp only
  split
  · show r.whole * (10 * r.scale) + (10 * r.part + _) = 10 * (r.whole * r.scale + r.part) + _
    rw [Nat.mul_add, Nat.mul_left_comm, Nat.add_assoc]
  · show r.value * 10 + _ = _
    rw [Nat.mul_comm]

theorem Reading.value_foldl (cs : List Char) (r : Reading) :
    (cs.foldl Reading.add r).value
      = cs.foldl (fun n c => 10 * n + (digitValue? c).getD 0) r.value := by
  induction cs generalizing r with
  | nil => rfl
  | cons c cs ih => rw [List.foldl_cons, List.foldl_cons, ih, Reading.value_add]

/-- Digit by digit, the number before it counts ten times. -/
theorem ofDigits_eq_foldl (cs : List Char) :
    ofDigits cs = cs.foldl (fun n c => 10 * n + (digitValue? c).getD 0) 0 :=
  Reading.value_foldl cs ⟨0, 0, 1⟩

theorem digitValue?_of_isAsciiDigit {c : Char} (h : isAsciiDigit c = true) :
    digitValue? c = some (c.toNat - 48) := by
  have hbounds : 48 ≤ c.toNat ∧ c.toNat ≤ 57 := by simpa [isAsciiDigit] using h
  have hsmall : c.toNat < 0x80 := by omega
  simp [digitValue?, hsmall, h]

theorem ofDigits_eq_ofDigitChars {ds : List Char} (h : ∀ c ∈ ds, isAsciiDigit c = true) :
    ofDigits ds = Nat.ofDigitChars 10 ds 0 := by
  rw [ofDigits_eq_foldl, Nat.ofDigitChars_eq_foldl]
  refine List.foldl_ext _ _ 0 fun n c hc => ?_
  rw [digitValue?_of_isAsciiDigit (h c hc)]
  rfl

theorem isAsciiDigit_of_mem_digits {n : Nat} {c : Char} (h : c ∈ digits n) :
    isAsciiDigit c = true := by
  have hdigit : c.isDigit = true := Nat.isDigit_of_mem_toDigits (by decide) (by decide) h
  simp only [Char.isDigit, Bool.and_eq_true, decide_eq_true_eq, ge_iff_le,
    UInt32.le_iff_toNat_le] at hdigit
  simpa [isAsciiDigit] using hdigit

/-- The digits of a number spell it. -/
theorem ofDigits_digits (n : Nat) : ofDigits (digits n) = n := by
  rw [ofDigits_eq_ofDigitChars fun _ hc => isAsciiDigit_of_mem_digits hc]
  exact Nat.ofDigitChars_ten_toDigits

theorem ofDigits_zeros_append (k : Nat) (ds : List Char) :
    ofDigits (List.replicate k '0' ++ ds) = ofDigits ds := by
  rw [ofDigits_eq_foldl, ofDigits_eq_foldl]
  induction k with
  | zero => rfl
  | succ k ih => exact ih

theorem ofDigits_lt {ds : List Char} (h : ∀ c ∈ ds, isAsciiDigit c = true) :
    ofDigits ds < 10 ^ ds.length := by
  have hfold : ∀ n, ds.foldl (fun n c => 10 * n + (digitValue? c).getD 0) n
      < (n + 1) * 10 ^ ds.length := by
    induction ds with
    | nil => simp
    | cons c ds ih =>
      intro n
      have hbounds : 48 ≤ c.toNat ∧ c.toNat ≤ 57 := by
        simpa [isAsciiDigit] using h c List.mem_cons_self
      rw [List.foldl_cons, digitValue?_of_isAsciiDigit (h c List.mem_cons_self), Option.getD_some]
      calc _ < (10 * n + (c.toNat - 48) + 1) * 10 ^ ds.length :=
            ih (fun d hd => h d (List.mem_cons_of_mem _ hd)) _
        _ ≤ 10 * (n + 1) * 10 ^ ds.length := Nat.mul_le_mul_right _ (by omega)
        _ = (n + 1) * 10 ^ (c :: ds).length := by
          rw [List.length_cons, Nat.pow_succ, Nat.mul_comm 10, Nat.mul_assoc, Nat.mul_comm 10]
  simpa [ofDigits_eq_foldl] using hfold 0

/-! ## How many digits -/

theorem length_digits_le_iff {n k : Nat} (hk : 0 < k) : (digits n).length ≤ k ↔ n < 10 ^ k :=
  Nat.length_toDigits_le_iff (by decide) hk

/-- Cutting `m` digits off leaves a row that is `m` digits shorter. -/
theorem length_digits_div {n m : Nat} (h : 10 ^ m ≤ n) :
    (digits n).length = m + (digits (n / 10 ^ m)).length := by
  have hpos : 0 < (digits (n / 10 ^ m)).length := Nat.length_toDigits_pos
  have hlong : m < (digits n).length := by
    rcases Nat.eq_zero_or_pos m with rfl | hm
    · exact Nat.length_toDigits_pos
    · rw [← Nat.not_le, length_digits_le_iff hm]
      omega
  -- both lengths are at most the same bounds
  have hbound : ∀ j, 0 < j → ((digits n).length ≤ m + j ↔ (digits (n / 10 ^ m)).length ≤ j) := by
    intro j hj
    rw [length_digits_le_iff (by omega), length_digits_le_iff hj,
      Nat.div_lt_iff_lt_mul (Nat.pow_pos (by decide)), Nat.pow_add, Nat.mul_comm]
  have hle := (hbound _ hpos).mpr (Nat.le_refl _)
  have hge := (hbound ((digits n).length - m) (by omega)).mp (by omega)
  omega

theorem digitCountBelow_eq_length {k n : Nat} (h : n < 10 ^ 2 ^ k) :
    digitCountBelow k n = (digits n).length := by
  induction k generalizing n with
  | zero =>
    have hone : (digits n).length ≤ 1 := (length_digits_le_iff (by decide)).mpr h
    have hpos : 0 < (digits n).length := Nat.length_toDigits_pos
    rw [digitCountBelow]
    omega
  | succ k ih =>
    rw [digitCountBelow]
    show (if n < 10 ^ 2 ^ k then digitCountBelow k n
      else 2 ^ k + digitCountBelow k (n / 10 ^ 2 ^ k)) = _
    split
    · next hsmall => exact ih hsmall
    · next hlarge =>
      have hrest : n / 10 ^ 2 ^ k < 10 ^ 2 ^ k := by
        rw [Nat.div_lt_iff_lt_mul (Nat.pow_pos (by decide)), ← Nat.pow_add, ← Nat.two_mul,
          Nat.mul_comm 2,
          ← Nat.pow_succ]
        exact h
      rw [ih hrest, length_digits_div (Nat.not_lt.mp hlarge)]

/-- The count of digits is the length of the row of digits. -/
theorem digitCount_eq_length (n : Nat) : digitCount n = (digits n).length := by
  refine digitCountBelow_eq_length ?_
  have hbits : n < 2 ^ (n.log2 + 1) := Nat.lt_log2_self
  have hcount : n.log2 + 1 < 2 ^ ((n.log2 + 1).log2 + 1) := Nat.lt_log2_self
  calc n < 2 ^ (n.log2 + 1) := hbits
    _ ≤ 2 ^ 2 ^ ((n.log2 + 1).log2 + 1) := Nat.pow_le_pow_right (by decide) (Nat.le_of_lt hcount)
    _ ≤ 10 ^ 2 ^ ((n.log2 + 1).log2 + 1) := Nat.pow_le_pow_left (by decide) _

theorem digitCount_le_iff {n k : Nat} (hk : 0 < k) : digitCount n ≤ k ↔ n < 10 ^ k := by
  rw [digitCount_eq_length, length_digits_le_iff hk]

theorem digitCount_pos (n : Nat) : 0 < digitCount n := by
  rw [digitCount_eq_length]
  exact Nat.length_toDigits_pos

theorem lt_pow_digitCount (n : Nat) : n < 10 ^ digitCount n :=
  (digitCount_le_iff (digitCount_pos n)).mp (Nat.le_refl _)

theorem pow_digitCount_le {n : Nat} (h : n ≠ 0) : 10 ^ (digitCount n - 1) ≤ n := by
  rcases Nat.eq_zero_or_pos (digitCount n - 1) with hone | hpos
  · rw [hone]
    exact Nat.pos_of_ne_zero h
  · refine Nat.not_lt.mp fun hlt => ?_
    have := (digitCount_le_iff hpos).mpr hlt
    omega

end Tariff.Numeral

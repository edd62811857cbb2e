import Tariff.Proofs.CleanReport
import Tariff.Proofs.Number
import Tariff.Proofs.Sample

/-!
# Conditions on numbers

An answer may state a number as an integer, a binary64 number, a truth value or a text. Conditions
on the variables whose answer is a number do not look at this: what is stated has one exact value,
and all six comparisons test the order of two values:

* `holds_of_ordering?` — the four comparisons by size, which fail where no number is stated;
* `holds_ofOrdering` — of being smaller, the same and greater, the one that the order is.

So they are consistent with one another (`numbers_in_order`).
-/

namespace Tariff

namespace Answer

/-- Whether two answers state numbers whose order passes a test. -/
def inOrder (test : Ordering → Bool) (answer expected : Value) : Bool :=
  match number? answer, number? expected with
  | some a, some b => (a.compare? b).any test
  | _, _ => false

variable {answer expected : Value} {a b : Number} {test : Ordering → Bool}

theorem compare?_of_number? (ha : number? answer = some a) (hb : number? expected = some b) :
    a.compare? b = some (compare a.value b.value) :=
  Number.compare?_eq (Variable.isFinite_of_number? ha) (Variable.isFinite_of_number? hb)

/-- Numbers that are stated are in the order of their values. -/
theorem inOrder_of_number? (ha : number? answer = some a) (hb : number? expected = some b) :
    inOrder test answer expected = test (compare a.value b.value) := by
  simp only [inOrder, ha, hb, compare?_of_number? ha hb, Option.any_some]

theorem inOrder_eq_true_iff :
    inOrder test answer expected = true
      ↔ ∃ a b, number? answer = some a ∧ number? expected = some b
        ∧ test (compare a.value b.value) = true := by
  constructor
  · intro h
    cases ha : number? answer with
    | none => simp [inOrder, ha] at h
    | some a =>
      cases hb : number? expected with
      | none => simp [inOrder, ha, hb] at h
      | some b => exact ⟨a, b, rfl, rfl, by rwa [inOrder_of_number? ha hb] at h⟩
  · rintro ⟨a, b, ha, hb, h⟩
    rwa [inOrder_of_number? ha hb]

theorem inOrder_of_not_number? (h : number? answer = none ∨ number? expected = none) :
    inOrder test answer expected = false := by
  rw [← Bool.not_eq_true, inOrder_eq_true_iff]
  rintro ⟨a, b, ha, hb, -⟩
  rcases h with h | h
  · cases h.symm.trans ha
  · cases h.symm.trans hb

end Answer

namespace Comparison

/-- The orders of two numbers that pass one of the four comparisons by size. -/
def ordering? : Comparison → Option (Ordering → Bool)
  | greaterThan => some (· == .gt)
  | lessThan => some (· == .lt)
  | greaterOrEqual => some (· != .lt)
  | lessOrEqual => some (· != .gt)
  | equals | notEquals | contains | isEmpty | isNotEmpty => none

/-- The comparison that asks for one order of two numbers. -/
def ofOrdering : Ordering → Comparison
  | .lt => lessThan
  | .eq => equals
  | .gt => greaterThan

theorem mem_ofOrdering_iff {c : Comparison} :
    c ∈ [lessThan, equals, greaterThan] ↔ ∃ order, ofOrdering order = c := by
  simp only [List.mem_cons, List.not_mem_nil, or_false]
  constructor
  · rintro (rfl | rfl | rfl)
    · exact ⟨.lt, rfl⟩
    · exact ⟨.eq, rfl⟩
    · exact ⟨.gt, rfl⟩
  · rintro ⟨order, rfl⟩
    cases order <;> simp [ofOrdering]

variable {v : Variable} {answer expected : Value} {a b : Number}

section Numeric

variable (hkind : v.kind.isNumeric = true)
include hkind

/-- **Comparisons by size test the order of two numbers**; they fail where no number is stated. -/
theorem holds_of_ordering? {c : Comparison} {test : Ordering → Bool} (hc : c.ordering? = some test)
    (answer expected : Value) :
    c.holds v answer expected = Answer.inOrder test answer expected := by
  have hcomparable : v.comparableNumber? answer = Answer.number? answer := by
    rw [Variable.comparableNumber?, if_pos (by simp [hkind])]
  cases answer with
  | null => cases c <;> cases hc <;> rfl
  | _ =>
    unfold holds
    rw [hcomparable]
    cases c <;> cases hc <;> rfl

theorem holds_equals (ha : Answer.number? answer = some a) (hb : Answer.number? expected = some b) :
    equals.holds v answer expected = (compare a.value b.value == .eq) := by
  have hbox : ¬ (v.kind == .checkbox) = true := by
    intro hbox
    rw [beq_iff_eq.mp hbox] at hkind
    cases hkind
  have hequals : v.answerEquals answer expected = a.equals b := by
    simp only [Variable.answerEquals, if_neg hbox, if_pos hkind, ha, hb]
  have hholds : equals.holds v answer expected = v.answerEquals answer expected := by
    cases answer with
    | null => cases ha
    | _ => rfl
  rw [hholds, hequals, Number.equals, Answer.compare?_of_number? ha hb]
  rfl

omit hkind in
theorem holds_notEquals (ha : Answer.number? answer = some a) :
    notEquals.holds v answer expected = !equals.holds v answer expected := by
  cases answer with
  | null => cases ha
  | _ => rfl

section Stated

variable (ha : Answer.number? answer = some a) (hb : Answer.number? expected = some b)
include ha hb

theorem holds_of_ordering?_of_number? {c : Comparison} {test : Ordering → Bool}
    (hc : c.ordering? = some test) :
    c.holds v answer expected = test (compare a.value b.value) :=
  (holds_of_ordering? hkind hc answer expected).trans (Answer.inOrder_of_number? ha hb)

/-- **Two numbers pass the comparison that asks for their order.** -/
theorem holds_ofOrdering (order : Ordering) :
    (ofOrdering order).holds v answer expected = true ↔ compare a.value b.value = order := by
  have htest : (ofOrdering order).holds v answer expected = (compare a.value b.value == order) := by
    cases order with
    | lt => exact holds_of_ordering?_of_number? (c := lessThan) hkind ha hb rfl
    | eq => exact holds_equals hkind ha hb
    | gt => exact holds_of_ordering?_of_number? (c := greaterThan) hkind ha hb rfl
  rw [htest, beq_iff_eq]

theorem existsUnique_holds :
    ∃! c, c ∈ [lessThan, equals, greaterThan] ∧ c.holds v answer expected = true := by
  have hholds := holds_ofOrdering hkind ha hb
  refine ⟨ofOrdering (compare a.value b.value), ⟨mem_ofOrdering_iff.mpr ⟨_, rfl⟩, ?_⟩, ?_⟩
  · exact (hholds _).mpr rfl
  · rintro c ⟨hc, hother⟩
    obtain ⟨order, rfl⟩ := mem_ofOrdering_iff.mp hc
    rw [(hholds order).mp hother]

end Stated

theorem lessThan_trans {first second third : Value} (h : lessThan.holds v first second = true)
    (h' : lessThan.holds v second third = true) : lessThan.holds v first third = true := by
  rw [holds_of_ordering? hkind rfl, Answer.inOrder_eq_true_iff] at h h' ⊢
  obtain ⟨a, b, ha, hb, hab⟩ := h
  obtain ⟨b', c, hb', hc, hbc⟩ := h'
  obtain rfl : b = b' := Option.some.inj (hb.symm.trans hb')
  rw [beq_iff_eq, compare_lt_iff_lt] at hab hbc
  exact ⟨a, c, ha, hc, beq_iff_eq.mpr (compare_lt_iff_lt.mpr (hab.trans hbc))⟩

/-- **Conditions on numbers are those of one order.** Where two numbers are stated, by whatever
kinds of values, their exact values decide on every comparison. The first one is smaller, the same
or greater, which exclude each other, and the other three comparisons are the negations of these.
What is smaller than a smaller number is smaller. Where one side states no number, no comparison by
size holds. -/
theorem numbers_in_order :
    (∀ answer expected a b, Answer.number? answer = some a → Answer.number? expected = some b →
      (lessThan.holds v answer expected = true ↔ a.value < b.value)
        ∧ (equals.holds v answer expected = true ↔ a.value = b.value)
        ∧ (greaterThan.holds v answer expected = true ↔ b.value < a.value)
        ∧ (∃! c, c ∈ [lessThan, equals, greaterThan] ∧ c.holds v answer expected = true)
        ∧ greaterOrEqual.holds v answer expected = !lessThan.holds v answer expected
        ∧ lessOrEqual.holds v answer expected = !greaterThan.holds v answer expected
        ∧ notEquals.holds v answer expected = !equals.holds v answer expected)
      ∧ (∀ first second third, lessThan.holds v first second = true →
        lessThan.holds v second third = true → lessThan.holds v first third = true)
      ∧ ∀ answer expected, Answer.number? answer = none ∨ Answer.number? expected = none →
        ∀ c ∈ [lessThan, greaterThan, greaterOrEqual, lessOrEqual],
          c.holds v answer expected = false := by
  refine ⟨fun answer expected a b ha hb => ?_, fun _ _ _ => lessThan_trans hkind,
    fun answer expected hnone c hc => ?_⟩
  · have hholds := holds_ofOrdering hkind ha hb
    have hsize : ∀ {c test}, ordering? c = some test →
        c.holds v answer expected = test (compare a.value b.value) :=
      holds_of_ordering?_of_number? hkind ha hb
    refine ⟨(hholds .lt).trans compare_lt_iff_lt, (hholds .eq).trans compare_eq_iff_eq,
      (hholds .gt).trans compare_gt_iff_gt, existsUnique_holds hkind ha hb, ?_, ?_,
      holds_notEquals ha⟩
    · rw [hsize (c := greaterOrEqual) rfl, hsize (c := lessThan) rfl]
      rfl
    · rw [hsize (c := lessOrEqual) rfl, hsize (c := greaterThan) rfl]
      rfl
  · have hfails : ∀ {c test}, ordering? c = some test → c.holds v answer expected = false :=
      fun hsize => (holds_of_ordering? hkind hsize answer expected).trans
        (Answer.inOrder_of_not_number? hnone)
    simp only [List.mem_cons, List.not_mem_nil, or_false] at hc
    rcases hc with rfl | rfl | rfl | rfl <;> exact hfails rfl

end Numeric

/-- An integer of 54 bits is greater than the number that its digits are read as, which has 53 bits.
A truth value is smaller than both, and what is no number is not in order with any. -/
theorem numbers_in_order_typed :
    greaterThan.holds Sample.length (.int 9007199254740993) (.text "9007199254740993") = true
      ∧ ¬ equals.holds Sample.length (.int 9007199254740993) (.text "9007199254740993") = true
      ∧ lessThan.holds Sample.length (.bool true) (.int 9007199254740993) = true
      ∧ lessThan.holds Sample.length (.text "many") (.int 9007199254740993) = false := by
  have htyped : Answer.number? (.text "9007199254740993")
      = some (.real (.finite false 4503599627370496 1)) := by decide +kernel
  have hvalue : (Number.real (.finite false 4503599627370496 1)).value = 9007199254740992 := by
    rw [Number.value_of_place? (n := 9007199254740992) (d := 1) rfl]
    norm_num
  have hwhole : ∀ n : ℤ, (Number.whole n).value = n := fun n => by
    rw [Number.value_of_place? (n := n) (d := 1) rfl, Nat.cast_one, div_one]
  obtain ⟨hnumbers, htrans, hfails⟩ := numbers_in_order (v := Sample.length) rfl
  obtain ⟨-, hequal, hgreater, -⟩ := hnumbers (.int 9007199254740993) _ _ _ rfl htyped
  obtain ⟨hone, -⟩ := hnumbers (.bool true) _ _ _ rfl htyped
  obtain ⟨htwo, -⟩ := hnumbers _ (.int 9007199254740993) _ _ htyped rfl
  rw [hvalue, hwhole] at hequal hgreater hone htwo
  refine ⟨hgreater.mpr (by norm_num), ?_, htrans _ _ _ (hone.mpr (by norm_num)) (htwo.mpr ?_), ?_⟩
  · rw [hequal]
    norm_num
  · norm_num
  · exact hfails _ _ (.inl (by decide)) lessThan (by simp)

end Comparison

end Tariff

import Tariff.Proofs.CleanReport
import Tariff.Proofs.Numeral.Binary64
import Tariff.Proofs.Provenance
import Tariff.Proofs.Quote
import Tariff.Service.Response

/-!
# What can be sent

A result is sent if no number in it is infinite or undefined. Its price always can be written
(`writable_of_calculate`), and what it takes over from the answers and the formula can be sent if
they can (`passes_sends`). What is left is the value of the expression, which is reported in
binary64: that is finite exactly up to the end of its range (`sendable_iff_inRange`), wherever the
price is moved to.
-/

namespace Tariff.Service

/-! ## Values that can be sent -/

/-- Whether what is public of a value can be sent. -/
def Sends (v : Value) : Prop :=
  isSendable (publicPart v) = true

instance (v : Value) : Decidable (Sends v) :=
  inferInstanceAs (Decidable (_ = true))

@[simp] theorem sends_null : Sends .null := rfl

@[simp] theorem sends_bool (b : Bool) : Sends (.bool b) := rfl

@[simp] theorem sends_text (s : String) : Sends (.text s) := rfl

@[simp] theorem sends_int {n : Int} : Sends (.int n) ↔ isWritable n = true := .rfl

@[simp] theorem sends_float {x : Binary64} : Sends (.float x) ↔ x.isFinite = true := .rfl

@[simp] theorem sends_list {items : List Value} :
    Sends (.list items) ↔ ∀ v ∈ items, Sends v := by
  show allSendable (publicParts items) = true ↔ _
  induction items with
  | nil => simp [publicParts, allSendable]
  | cons v items ih =>
    rw [publicParts, allSendable, Bool.and_eq_true, ih, List.forall_mem_cons]
    rfl

@[simp] theorem sends_record {fs : List (String × Value)} :
    Sends (.record fs) ↔ ∀ f ∈ fs, isInternal f.1 = false → Sends f.2 := by
  show fieldsSendable (publicFields fs) = true ↔ _
  induction fs with
  | nil => simp [publicFields, fieldsSendable]
  | cons f fs ih =>
    rw [publicFields, List.forall_mem_cons]
    split
    · next hinternal => simp [hinternal, ih]
    · next hpublic =>
      rw [fieldsSendable, Bool.and_eq_true, ih]
      simp only [hpublic, forall_const]
      rfl

/-- Whether a result can be sent: nothing public in it is infinite or undefined. -/
def Sendable (r : PriceResult) : Prop :=
  r.unrounded.isFinite = true
    ∧ (∀ e ∈ r.effective, isInternal e.1 = false → Sends e.2)
    ∧ ∀ e ∈ r.tokens, isInternal e.1 = false → Sends e.2.toValue

@[simp] theorem sends_textsValue (texts : List String) : Sends (textsValue texts) := by
  simp [textsValue]

@[simp] theorem sends_traceStepValue (step : TraceStep) : Sends (traceStepValue step) := by
  simp [traceStepValue]

/-- No name is kept back of a record that has none of the inner ones. -/
theorem sends_record_of_public {fs : List (String × Value)}
    (h : ∀ name ∈ fs.map (·.1), isInternal name = false) :
    Sends (.record fs) ↔ ∀ f ∈ fs, Sends f.2 := by
  rw [sends_record]
  refine forall₂_congr fun f hf => ?_
  simp only [h f.1 (List.mem_map.mpr ⟨f, hf, rfl⟩), forall_const]

theorem sends_resultValue_iff {r : PriceResult} (hprice : isWritable r.price = true)
    (hrounded : isWritable r.rounded = true) : Sends (resultValue r) ↔ Sendable r := by
  have hclamped : Sends ((r.clamped.map fun b => Value.text b.name).getD .null) := by
    cases r.clamped <;> rfl
  rw [resultValue, sends_record_of_public (by simp only [List.map]; decide), Sendable]
  simp only [List.forall_mem_cons, List.forall_mem_map, sends_record, sends_list, sends_text,
    sends_int, sends_float, sends_bool, sends_textsValue, sends_traceStepValue, hprice, hrounded,
    hclamped, List.not_mem_nil, false_implies, implies_true, true_and, and_true]
  constructor
  · rintro ⟨heffective, htokens, hunrounded⟩
    exact ⟨hunrounded, heffective, htokens⟩
  · rintro ⟨hunrounded, heffective, htokens⟩
    exact ⟨heffective, htokens, hunrounded⟩

/-- Whether a quote can be sent: its total can be written, and every line can be sent. -/
def QuoteSendable (q : Quote) : Prop :=
  isWritable q.total = true ∧ ∀ r ∈ q.lines, Sendable r

theorem sends_quoteValue_iff {q : Quote}
    (hlines : ∀ r ∈ q.lines, isWritable r.price = true ∧ isWritable r.rounded = true) :
    Sends (quoteValue q) ↔ QuoteSendable q := by
  rw [quoteValue, sends_record_of_public (by simp only [List.map]; decide), QuoteSendable]
  simp only [List.forall_mem_cons, List.forall_mem_map, sends_list, sends_int, sends_textsValue,
    List.not_mem_nil, false_implies, implies_true, and_true]
  refine and_congr_right fun _ => forall₂_congr fun r hr => ?_
  exact sends_resultValue_iff (hlines r hr).1 (hlines r hr).2

/-! ## What is found can be written -/

theorem writable_of_calculate {f : Formula} {answers : Answers} {depth : Nat} {r : PriceResult}
    (h : f.calculate answers depth = .ok r) :
    isWritable r.price = true ∧ isWritable r.rounded = true := by
  obtain ⟨value, rounded, -, ⟨hrounded, hprice⟩, rfl⟩ := Formula.exists_isShown h
  exact ⟨isWritable_iff.mpr hprice, isWritable_iff.mpr hrounded⟩

theorem writable_of_quote {q : QuoteRequest} {depth : Nat} {quote : Quote}
    (h : q.quote depth = .ok quote) :
    ∀ r ∈ quote.lines, isWritable r.price = true ∧ isWritable r.rounded = true := by
  obtain ⟨shared, outcomes, -, houtcomes, rfl⟩ := QuoteRequest.quote_eq_ok_iff.mp h
  intro r hr
  obtain ⟨o, ho, hline⟩ := List.mem_filterMap.mp hr
  obtain ⟨f, -, hf⟩ := exists_of_mem_mapM houtcomes ho
  obtain ⟨answers, ids, -, -, rfl⟩ := QuoteRequest.line_eq_ok_iff.mp hf
  cases hcalculate : f.calculate answers depth with
  | error fault =>
    rw [hcalculate] at hline
    cases hline
  | ok own =>
    rw [hcalculate] at hline
    cases hline
    have hown := writable_of_calculate hcalculate
    exact hown

/-! ## What is given can be sent -/

/-- A value that can be sent states a number that can be sent. -/
theorem passes_sends : Passes Sends where
  null := sends_null
  text := sends_text
  zero := by decide
  number := by
    intro answer n hanswer h
    cases n with
    | real x => exact Variable.isFinite_of_number? h
    | whole m =>
      rcases Answer.number?_whole h with ⟨b, rfl, rfl⟩ | rfl
      · cases b <;> decide
      · exact hanswer

/-- **A price from numbers that can be sent is sent exactly if its value is in the range** of
binary64 numbers. -/
theorem sendable_iff_inRange {f : Formula} {answers : Answers} {depth : Nat} {r : PriceResult}
    (h : f.calculate answers depth = .ok r) (hf : ∀ v ∈ f.questions, v.Holds Sends)
    (hanswers : ∀ e ∈ answers, Sends e.2) : Sendable r ↔ Binary64.InRange r.value := by
  obtain ⟨value, rounded, -, -, rfl⟩ := Formula.exists_isShown h
  have heffective := holds_effective hf hanswers
  rw [← Binary64.isFinite_ofDecimal_iff]
  exact ⟨fun hsendable => hsendable.1, fun hfinite => ⟨hfinite, fun e he _ => heffective e he,
    fun e he _ => passes_sends.tokenMap hf heffective e he⟩⟩

/-! ## What is copied -/

theorem fieldsCopyCalls_le {n : Nat} {fields : List (String × Value)} (hn : 3 ≤ n)
    (h : ∀ e ∈ fields, copyCalls e.2 ≤ n) : fieldsCopyCalls fields ≤ n := by
  induction fields with
  | nil => exact Nat.zero_le n
  | cons e fields ih =>
    obtain ⟨hfirst, hrest⟩ := List.forall_mem_cons.mp h
    exact max_le (max_le hn hfirst) (ih hrest)

/-- **A result is nested hardly deeper than what it is made from.** -/
theorem resultCalls_le {f : Formula} {answers : Answers} {depth n : Nat} {r : PriceResult}
    (h : f.calculate answers depth = .ok r) (hn : 3 ≤ n)
    (hf : ∀ v ∈ f.questions, v.Holds fun value => copyCalls value ≤ n)
    (hanswers : ∀ e ∈ answers, copyCalls e.2 ≤ n) : resultCalls r ≤ n + 5 := by
  obtain ⟨value, rounded, -, -, rfl⟩ := Formula.exists_isShown h
  have heffective := fieldsCopyCalls_le hn (holds_effective hf hanswers)
  show 3 + (2 + fieldsCopyCalls (resolve f.questions answers).effective) ≤ n + 5
  omega

end Tariff.Service

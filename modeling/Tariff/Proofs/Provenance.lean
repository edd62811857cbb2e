import Tariff.Proofs.Resolution
import Tariff.Proofs.Tokens

/-!
# Where the values of a result come from

Every value of a result is taken over from an answer or from the formula, or it is the number that
one of these states, or a default. So a property that passes from an answer to the number it states,
and that the defaults have, is a property of everything in a result as soon as the answers and the
formula have it: of the effective values (`Passes.effective`), and of what is contributed
(`Passes.tokenMap`).
-/

namespace Tariff

/-- A property that passes from values to the numbers that they state, and that every default has.
-/
structure Passes (P : Value → Prop) : Prop where
  null : P .null
  text : ∀ s, P (.text s)
  zero : P (.ofNumber .zero)
  number : ∀ answer n, P answer → Answer.number? answer = some n → P (.ofNumber n)

/-- Everything that a variable may put into a result has a property. -/
structure Variable.Holds (P : Value → Prop) (v : Variable) : Prop where
  prefilled : P v.prefilled
  fallback : P (Resolution.fallback v)
  choices : ∀ c ∈ v.choices, P (.ofNumber c.number) ∧ P (.ofNumber c.unselected)
    ∧ ∀ m, c.multiplier? = some m → P (.ofNumber m)

/-- Everything that is contributed has a property. -/
def Coerced.Holds (P : Value → Prop) (c : Coerced) : Prop :=
  ∀ e ∈ c.contributions, P e.2.toValue

variable {P : Value → Prop} {answers : Answers} {v : Variable} {questions : List Variable}

/-! ## Effective values -/

theorem Variable.Holds.effectiveValue (hv : v.Holds P) (hanswers : ∀ e ∈ answers, P e.2)
    (resolved : Resolved) : P (Resolution.effectiveValue answers resolved v) := by
  unfold Resolution.effectiveValue Resolution.rawAnswer
  split
  · cases hfound : answers.find? v.id with
    | none => exact hv.prefilled
    | some answer => exact hanswers _ (OrderedMap.mem_of_find? hfound)
  · exact hv.fallback

/-- A step keeps the property, and so does a run. -/
theorem holds_run (hquestions : ∀ v ∈ questions, v.Holds P) (hanswers : ∀ e ∈ answers, P e.2)
    {r : Resolution} (hr : ∀ e ∈ r.resolved, P e.2.2) :
    ∀ e ∈ (Resolution.run answers r questions).resolved, P e.2.2 := by
  induction questions generalizing r with
  | nil => exact hr
  | cons v questions ih =>
    obtain ⟨hv, hrest⟩ := List.forall_mem_cons.mp hquestions
    refine ih hrest fun e he => ?_
    rw [Resolution.step_resolved] at he
    rcases OrderedMap.mem_of_mem_insert he with rfl | he
    · exact hv.effectiveValue hanswers _
    · exact hr e he

theorem holds_effective (hquestions : ∀ v ∈ questions, v.Holds P)
    (hanswers : ∀ e ∈ answers, P e.2) : ∀ e ∈ (resolve questions answers).effective, P e.2 := by
  have hstart : ∀ e ∈ Resolution.start.resolved, P e.2.2 := List.forall_mem_nil _
  have hrun := holds_run hquestions hanswers hstart
  intro e he
  obtain ⟨f, hf, rfl⟩ := List.mem_map.mp he
  rw [resolve_eq_run] at hf
  exact hrun f hf

/-! ## Contributions -/

/-- A whole number is stated by a truth value or by itself: a text is always read as a real number.
-/
theorem Answer.number?_whole {answer : Value} {n : Int} (h : number? answer = some (.whole n)) :
    (∃ b, answer = .bool b ∧ n = if b then 1 else 0) ∨ answer = .int n := by
  cases answer with
  | bool b =>
    cases h
    exact .inl ⟨b, rfl, rfl⟩
  | int m =>
    cases h
    exact .inr rfl
  | float x =>
    simp only [number?] at h
    split at h <;> cases h
  | text s =>
    obtain ⟨x, -, hx⟩ := Option.bind_eq_some_iff.mp h
    split at hx <;> cases hx
  | null | list items | record fields => cases h

theorem Coerced.holds_contributing {c : Contribution} {issues : List CoercionIssue}
    (h : P c.toValue) : (v.contributing c issues).Holds P :=
  List.forall_mem_singleton.mpr h

theorem Variable.Holds.amount (hv : v.Holds P) {c : Choice} (hc : c ∈ v.choices) :
    P (.ofNumber c.amount) := by
  obtain ⟨hnumber, -, hmultiplier⟩ := hv.choices c hc
  unfold Choice.amount
  cases hfilter : c.multiplier?.filter fun m => !m.isZero with
  | none => exact hnumber
  | some m => exact hmultiplier m (Option.filter_eq_some_iff.mp hfilter).1

namespace Passes

theorem numericContribution (hP : Passes P) {answer : Value} (hanswer : P answer) :
    (v.numericContribution answer).Holds P := by
  unfold Variable.numericContribution
  split
  · exact Coerced.holds_contributing hP.zero
  · split
    · next n hn => exact Coerced.holds_contributing (hP.number answer n hanswer hn)
    · exact Coerced.holds_contributing hP.zero

theorem choiceContribution (hP : Passes P) {amount : Choice → Number} {answer : Value}
    {issues : List CoercionIssue} (hamount : ∀ c ∈ v.choices, P (.ofNumber (amount c))) :
    (v.choiceContribution amount answer issues).Holds P := by
  unfold Variable.choiceContribution
  split
  · exact Coerced.holds_contributing hP.zero
  · split
    · next c hc =>
      exact Coerced.holds_contributing (hamount c (Variable.mem_choices_of_choiceFor? hc))
    · exact Coerced.holds_contributing hP.zero

/-- **What a variable contributes** has the property if its answer and the variable have it. -/
theorem contributions (hP : Passes P) (hv : v.Holds P) {answer : Value} (hanswer : P answer) :
    (v.contributions answer).Holds P := by
  have hnumbers : ∀ c ∈ v.choices, P (.ofNumber c.number) := fun c hc => (hv.choices c hc).1
  unfold Variable.contributions
  split
  · exact hP.numericContribution hanswer
  · exact hP.numericContribution hanswer
  · exact hP.numericContribution hanswer
  · exact Coerced.holds_contributing hP.zero
  · exact Coerced.holds_contributing (hP.text _)
  · exact hP.choiceContribution hnumbers
  · exact hP.choiceContribution fun c hc => hv.amount hc
  · split
    · intro e he
      obtain ⟨c, hc, rfl⟩ := List.mem_map.mp (OrderedMap.mem_of_mem_ofList he)
      dsimp only
      split
      · exact hnumbers c hc
      · exact (hv.choices c hc).2.1
    · exact hP.choiceContribution hnumbers

theorem tokenMap (hP : Passes P) (hquestions : ∀ v ∈ questions, v.Holds P)
    {effective : OrderedMap Value} (heffective : ∀ e ∈ effective, P e.2) :
    (Tariff.tokenMap questions effective).Holds P := by
  intro e he
  obtain ⟨c, hc, hec⟩ := List.mem_flatMap.mp (OrderedMap.mem_of_mem_ofList he)
  obtain ⟨v, hv, rfl⟩ := List.mem_map.mp hc
  refine hP.contributions (hquestions v hv) ?_ e hec
  cases hfound : effective.find? v.id with
  | none => exact hP.null
  | some value => exact heffective _ (OrderedMap.mem_of_find? hfound)

end Passes

end Tariff

import Tariff.Definition
import Tariff.Pricing
import Tariff.Proofs.Outcome
import Tariff.Proofs.Provenance

/-!
# Values that can be stored

A stored value holds no whole number with more digits than are read and written, and its lists and
records are nested no deeper than calls can be (`Value.isReadable`). A formula that is read from
such a value holds nothing else (`Formula.isReadable_of_ofValue`), and so every number that is
contributed under such answers can be written (`isWritable_tokenMap`).
-/

namespace Tariff

/-- Whether a value can be stored: every whole number in it can be written, and at most `levels`
lists and records are open in it at once. -/
def Value.isReadable : Nat → Value → Bool
  | _, .int n => isWritable n
  | 0, .list _ | 0, .record _ => false
  | levels + 1, .list items => items.all fun v => v.isReadable levels
  | levels + 1, .record fields => fields.all fun e => e.2.isReadable levels
  | _, _ => true

/-- Whether all that an option is chosen and priced by can be stored. -/
def Choice.isReadable (levels : Nat) (c : Choice) : Bool :=
  c.value.isReadable levels && (Value.ofNumber c.number).isReadable levels
    && (Value.ofNumber c.unselected).isReadable levels
    && c.multiplier?.all fun m => (Value.ofNumber m).isReadable levels

/-- Whether all values of a rule can be stored. -/
def VisibilityRule.isReadable (levels : Nat) (r : VisibilityRule) : Bool :=
  r.fallback.isReadable levels && r.conditions.all fun c => c.expected.isReadable levels

/-- Whether all values that a variable is resolved and priced by can be stored. -/
def Variable.isReadable (levels : Nat) (v : Variable) : Bool :=
  v.prefilled.isReadable levels && v.rule?.all (·.isReadable levels)
    && v.choices.all (·.isReadable levels)

/-- Whether all values that a formula is priced by can be stored. -/
def Formula.isReadable (levels : Nat) (f : Formula) : Bool :=
  f.questions.all (·.isReadable levels)

/-! ## Definitions -/

namespace Value

variable {levels : Nat} {v : Value}

theorem isReadable_succ (h : v.isReadable levels = true) : v.isReadable (levels + 1) = true := by
  induction levels generalizing v with
  | zero => cases v <;> first | exact h | cases h
  | succ levels ih =>
    cases v with
    | list items =>
      simp only [isReadable, List.all_eq_true] at h ⊢
      exact fun v hv => ih (h v hv)
    | record fields =>
      simp only [isReadable, List.all_eq_true] at h ⊢
      exact fun e he => ih (h e he)
    | _ => exact h

/-- What has no members can be stored at every level. -/
theorem isReadable_of_zero (h : v.isReadable 0 = true) (levels : Nat) :
    v.isReadable levels = true := by
  induction levels with
  | zero => exact h
  | succ levels ih => exact isReadable_succ ih

/-- What a list holds can be stored if the list can. -/
theorem isReadable_of_mem {items : List Value} (h : (list items).isReadable levels = true)
    (hv : v ∈ items) : v.isReadable levels = true := by
  cases levels with
  | zero => cases h
  | succ levels => exact isReadable_succ (List.all_eq_true.mp h v hv)

theorem isReadable_field {fields : OrderedMap Value} (h : (record fields).isReadable levels = true)
    (name : String) : (Definition.field fields name).isReadable levels = true := by
  unfold Definition.field
  cases hfound : fields.find? name with
  | none => cases levels <;> rfl
  | some v =>
    cases levels with
    | zero => cases h
    | succ levels =>
      exact isReadable_succ (List.all_eq_true.mp h _ (OrderedMap.mem_of_find? hfound))

end Value

open Definition

variable {levels : Nat} {v : Value}

theorem isReadable_null (levels : Nat) : Value.null.isReadable levels = true := by
  cases levels <;> rfl

theorem isReadable_text (s : String) : (Value.text s).isReadable levels = true := by
  cases levels <;> rfl

theorem isReadable_int (n : Int) : (Value.int n).isReadable levels = isWritable n := by
  cases levels <;> rfl

theorem isReadable_float (x : Binary64) : (Value.float x).isReadable levels = true := by
  cases levels <;> rfl

theorem yields_fields (hv : v.isReadable levels = true) :
    Yields (fun r => v = .record r ∧ (Value.record r).isReadable levels = true) (fields v) := by
  cases v with
  | record r => exact .ok ⟨rfl, hv⟩
  | _ => exact .error

theorem yields_number (hv : v.isReadable levels = true) :
    Yields (fun n => (Value.ofNumber n).isReadable levels = true) (number v) := by
  unfold number
  split
  · next b => exact .ok ((isReadable_int _).trans (by cases b <;> decide))
  · exact .ok hv
  · exact .ok (isReadable_float _)
  · dsimp only
    split
    · exact .ok (isReadable_float _)
    · exact .error

theorem yields_number? (hv : v.isReadable levels = true) :
    Yields (fun n? => n?.all (fun n => (Value.ofNumber n).isReadable levels) = true)
      (number? v) := by
  unfold number?
  split
  · exact .ok rfl
  · exact (yields_number hv).map fun _ hn => hn

theorem yields_numberOrZero (hv : v.isReadable levels = true) :
    Yields (fun n => (Value.ofNumber n).isReadable levels = true) (numberOrZero v) := by
  refine (yields_number? hv).map fun n? hn => ?_
  cases n? with
  | none => exact (isReadable_int 0).trans (by decide)
  | some n => exact hn

theorem yields_members (hv : v.isReadable levels = true) :
    Yields (fun items => ∀ w ∈ items, w.isReadable levels = true) (members v) := by
  unfold members
  split
  · exact .ok nofun
  · split
    · exact .ok fun w hw => Value.isReadable_of_mem hv hw
    · refine .ok fun w hw => ?_
      obtain ⟨c, -, rfl⟩ := List.mem_map.mp hw
      exact isReadable_text _
    · refine .ok fun w hw => ?_
      obtain ⟨f, -, rfl⟩ := List.mem_map.mp hw
      exact isReadable_text _
    · exact .error

theorem Choice.yields_ofValue (hv : v.isReadable levels = true) (place : Int) :
    Yields (fun c => c.isReadable levels = true) (Choice.ofValue v place) := by
  refine .bind (yields_fields hv) fun r hr => ?_
  have hfield := Value.isReadable_field hr.2
  refine .bind (yields_numberOrZero (hfield _)) fun number hnumber => ?_
  refine .bind (yields_numberOrZero (hfield _)) fun unselected hunselected => ?_
  refine .bind (yields_number? (hfield _)) fun multiplier? hmultiplier => .ok ?_
  have hvalue : (if (field r "value").isMissing then
      .text (Text.strip (textField r "label")) else field r "value").isReadable levels = true := by
    split
    · exact isReadable_text _
    · exact hfield _
  simp only [Choice.isReadable, hvalue, hnumber, hunselected, hmultiplier, Bool.and_self]

theorem Choice.yields_listOfValues {vs : List Value} (hvs : ∀ v ∈ vs, v.isReadable levels = true)
    (place : Nat) :
    Yields (fun cs => cs.all (·.isReadable levels) = true) (Choice.listOfValues place vs) := by
  induction vs generalizing place with
  | nil => exact .ok rfl
  | cons v vs ih =>
    obtain ⟨hv, hrest⟩ := List.forall_mem_cons.mp hvs
    refine .bind (Choice.yields_ofValue hv place) fun c hc => ?_
    refine .bind (ih hrest (place + 1)) fun cs hcs => .ok ?_
    rw [List.all_cons, hc, hcs, Bool.and_self]

theorem Condition.yields_ofValue (hv : v.isReadable levels = true) :
    Yields (fun c => c.expected.isReadable levels = true) (Condition.ofValue v) := by
  refine .bind (yields_fields hv) fun r hr => ?_
  have hfield := Value.isReadable_field hr.2
  dsimp only
  split
  · refine .ok ?_
    dsimp only
    split
    · next hlist =>
      rw [← hlist]
      exact hfield _
    · exact hfield _
  · exact .error

theorem VisibilityRule.yields_ofValue (hv : v.isReadable levels = true) :
    Yields (fun r => r.isReadable levels = true) (VisibilityRule.ofValue v) := by
  refine .bind (yields_fields hv) fun r hr => ?_
  have hfield := Value.isReadable_field hr.2
  dsimp only
  split
  · exact .error
  · -- a rule that is a condition itself is its only member
    refine .bind (q := fun items => ∀ w ∈ items, w.isReadable levels = true) ?_
      fun items hitems => ?_
    · split
      · exact .ok (List.forall_mem_singleton.mpr hv)
      · exact yields_members (hfield _)
    refine .bind (.mapM fun w hw => Condition.yields_ofValue (hitems w hw)) fun cs hcs => .ok ?_
    have hconditions : (cs.all fun c => c.expected.isReadable levels) = true :=
      List.all_eq_true.mpr hcs
    simp only [VisibilityRule.isReadable, hfield _, hconditions, Bool.and_self]

theorem Variable.yields_ofValue (hv : v.isReadable levels = true) :
    Yields (fun w => w.isReadable levels = true) (Variable.ofValue v) := by
  refine .bind (yields_fields hv) fun r hr => ?_
  have hfield := Value.isReadable_field hr.2
  refine .skip fun kind => ?_
  refine .bind (yields_members (hfield _)) fun options hoptions => ?_
  refine .bind (Choice.yields_listOfValues hoptions 0) fun choices hchoices => ?_
  refine .skip fun min? => .skip fun max? => .skip fun step? => ?_
  have hrule : Yields (fun rule? => rule?.all (·.isReadable levels) = true)
      (((field r "conditionalLogic").given?).mapM VisibilityRule.ofValue) := by
    cases hgiven : (field r "conditionalLogic").given? with
    | none => exact .ok rfl
    | some rule =>
      obtain ⟨-, hsome⟩ := Option.ite_none_left_eq_some.mp hgiven
      have hrule : rule.isReadable levels = true := Option.some.inj hsome ▸ hfield _
      exact .bind (VisibilityRule.yields_ofValue hrule) fun r hr => .ok hr
  refine .bind hrule fun rule? hrule => .ok ?_
  simp only [Variable.isReadable, hfield _, hrule, hchoices, Bool.and_self]

/-- **A formula that is read from a stored value** is priced by nothing that could not be stored. -/
theorem Formula.isReadable_of_ofValue {f : Formula} (h : Formula.ofValue v = .ok f)
    (hv : v.isReadable levels = true) : f.isReadable levels = true := by
  have hread : Yields (fun f => f.isReadable levels = true) (Formula.ofValue v) := by
    refine .bind (yields_fields hv) fun r hr => ?_
    refine .bind (yields_members (Value.isReadable_field hr.2 _)) fun stored hstored => ?_
    refine .bind (.mapM fun w hw => Variable.yields_ofValue (hstored w hw)) fun qs hqs => ?_
    exact .skip fun min? => .skip fun max? => .ok (List.all_eq_true.mpr hqs)
  exact hread f h

/-! ## Numbers that are contributed -/

/-- A whole number that a value is can be written. -/
def Value.IsShort (v : Value) : Prop :=
  ∀ n, v = .int n → isWritable n = true

theorem Value.isShort_of_isReadable (h : v.isReadable levels = true) : v.IsShort := by
  rintro n rfl
  exact (isReadable_int n).symm.trans h

theorem passes_isShort : Passes Value.IsShort where
  null := nofun
  text := nofun
  zero := by
    rintro _ ⟨⟩
    decide
  number := by
    intro answer n hanswer h m hm
    cases n with
    | real x => cases hm
    | whole k =>
      cases hm
      rcases Answer.number?_whole h with ⟨b, rfl, rfl⟩ | rfl
      · cases b <;> decide
      · exact hanswer _ rfl

theorem Variable.holds_isShort {v : Variable} (h : v.isReadable levels = true) :
    v.Holds Value.IsShort := by
  simp only [Variable.isReadable, Bool.and_eq_true, List.all_eq_true] at h
  obtain ⟨⟨hprefilled, hrule⟩, hchoices⟩ := h
  refine ⟨Value.isShort_of_isReadable hprefilled, ?_, fun c hc => ?_⟩
  · unfold Resolution.fallback
    cases hsome : v.rule? with
    | none => exact passes_isShort.null
    | some r =>
      rw [hsome] at hrule
      exact Value.isShort_of_isReadable (Bool.and_eq_true_iff.mp hrule).1
  · have hc := hchoices c hc
    simp only [Choice.isReadable, Bool.and_eq_true] at hc
    obtain ⟨⟨⟨-, hnumber⟩, hunselected⟩, hmultiplier⟩ := hc
    refine ⟨Value.isShort_of_isReadable hnumber, Value.isShort_of_isReadable hunselected,
      fun m hm => ?_⟩
    rw [hm] at hmultiplier
    exact Value.isShort_of_isReadable hmultiplier

theorem Contribution.isWritable_of_isShort {c : Contribution} (h : c.toValue.IsShort) :
    c.isWritable = true := by
  cases c with
  | text s => rfl
  | number n =>
    cases n with
    | whole m => exact h m rfl
    | real x => rfl

/-- **Every number that is contributed can be written** if those of the answers and of the formula
can. -/
theorem isWritable_tokenMap {f : Formula} (hf : f.isReadable levels = true) {answers : Answers}
    (hanswers : ∀ e ∈ answers, e.2.IsShort) :
    ((tokenMap f.questions (resolve f.questions answers).effective).contributions.all
      fun t => t.2.isWritable) = true := by
  have hquestions : ∀ v ∈ f.questions, v.Holds Value.IsShort := fun v hv =>
    Variable.holds_isShort (List.all_eq_true.mp hf v hv)
  have heffective := holds_effective hquestions hanswers
  exact List.all_eq_true.mpr fun t ht =>
    Contribution.isWritable_of_isShort (passes_isShort.tokenMap hquestions heffective t ht)

end Tariff

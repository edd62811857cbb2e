import Mathlib.Data.Option.Basic
import Tariff.Proofs.Choices
import Tariff.Proofs.Pricing
import Tariff.Proofs.Resolution

/-!
# Answers that cannot be told apart

All that a formula does with the answer to a variable is to test it in conditions and to let it
contribute. Two answers that pass the same tests and contribute the same are told apart nowhere
(`Variable.Equates`): under both every variable is shown or hidden alike (`Resolution.alike_run`),
and the price is the same (`Formula.calculate_of_equates`).

Two lists of selected options are of this kind, if they hold the same entries, in whatever order and
however often (`Variable.equates_of_entries`).
-/

namespace Tariff

/-! ## Texts in order -/

theorem nodup_eraseDups (xs : List String) : xs.eraseDups.Nodup := by
  induction hlength : xs.length using Nat.strongRecOn generalizing xs with
  | ind n ih =>
    cases xs with
    | nil => exact List.nodup_nil
    | cons x xs =>
      rw [List.eraseDups_cons, List.nodup_cons, List.mem_eraseDups]
      refine ⟨by simp, ih _ ?_ _ rfl⟩
      rw [← hlength]
      exact Nat.lt_succ_of_le (List.length_filter_le _ _)

theorem isEmpty_congr {α : Type} {xs ys : List α} (h : ∀ x, x ∈ xs ↔ x ∈ ys) :
    xs.isEmpty = ys.isEmpty := by
  rw [Bool.eq_iff_iff, List.isEmpty_iff, List.isEmpty_iff, List.eq_nil_iff_forall_not_mem,
    List.eq_nil_iff_forall_not_mem]
  simp only [h]

namespace Answer

/-- Texts are put in one order, whatever order they had. -/
theorem sortTexts_congr {xs ys : List String} (hxs : xs.Nodup) (hys : ys.Nodup)
    (h : ∀ s, s ∈ xs ↔ s ∈ ys) : sortTexts xs = sortTexts ys := by
  have hperm : (sortTexts xs).Perm (sortTexts ys) :=
    (List.mergeSort_perm xs _).trans
      (((List.perm_ext_iff_of_nodup hxs hys).mpr h).trans (List.mergeSort_perm ys _).symm)
  have hsorted : ∀ zs : List String, (sortTexts zs).Pairwise fun a b => decide (a ≤ b) = true :=
    List.pairwise_mergeSort (fun a b c hab hbc => by
        simp only [decide_eq_true_eq] at hab hbc ⊢
        exact String.le_trans hab hbc)
      fun a b => by simpa using String.le_total a b
  refine hperm.eq_of_pairwise (fun a b _ _ hab hba => ?_) (hsorted xs) (hsorted ys)
  simp only [decide_eq_true_eq] at hab hba
  exact String.le_antisymm hab hba

theorem nodup_selection (answer : Value) : (selection answer).Nodup := by
  unfold selection
  split
  · exact List.nodup_nil
  · split
    · exact nodup_eraseDups _
    · exact List.nodup_singleton _

theorem mem_selection_list {items : List Value} {s : String} :
    s ∈ selection (.list items) ↔ ∃ i ∈ items, isEmpty i = false ∧ i.plain = s := by
  unfold selection
  cases items with
  | nil => simp [isEmpty]
  | cons i items =>
    rw [if_neg (by simp [isEmpty])]
    show s ∈ (((i :: items).filter fun i => !isEmpty i).map Value.plain).eraseDups ↔ _
    simp only [List.mem_eraseDups, List.mem_map, List.mem_filter, Bool.not_eq_true', and_assoc]

end Answer

/-! ## Answers to one variable -/

namespace Variable

variable {v : Variable} {a b : Value} {xs ys : List Value}

/-- A variable does not tell two answers apart: they pass the same tests and contribute the same. -/
structure Equates (v : Variable) (a b : Value) : Prop where
  tests : ∀ (c : Comparison) (expected : Value), c.holds v a expected = c.holds v b expected
  contributions : v.contributions a = v.contributions b

theorem Equates.refl (v : Variable) (a : Value) : v.Equates a a :=
  ⟨fun _ _ => rfl, rfl⟩

/-- The texts of an answer that name no option. -/
def unknownTexts (v : Variable) (answer : Value) : List String :=
  (Answer.selection answer).filter fun s => !v.choices.any fun c => c.value.plain == s || c.id == s

theorem nodup_unknownTexts (v : Variable) (answer : Value) : (v.unknownTexts answer).Nodup :=
  (Answer.nodup_selection answer).filter _

theorem issues_selectionContributions (v : Variable) (answer : Value) :
    (v.selectionContributions answer).issues
      = if (v.unknownTexts answer).isEmpty then []
        else [⟨v.id, .list ((Answer.sortTexts (v.unknownTexts answer)).map .text),
          .noMatchingOption⟩] :=
  rfl

section Entries

variable (hmulti : v.isMultiSelect = true) (h : ∀ x, x ∈ xs ↔ x ∈ ys)
include h

theorem mem_selection_of_entries (s : String) :
    s ∈ Answer.selection (.list xs) ↔ s ∈ Answer.selection (.list ys) := by
  simp only [Answer.mem_selection_list, h]

theorem mem_canonicalSelection_of_entries (s : String) :
    s ∈ v.canonicalSelection (.list xs) ↔ s ∈ v.canonicalSelection (.list ys) := by
  simp only [canonicalSelection_eq, List.mem_map, mem_selection_of_entries h]

theorem mem_unknownTexts_of_entries (s : String) :
    s ∈ v.unknownTexts (.list xs) ↔ s ∈ v.unknownTexts (.list ys) := by
  unfold unknownTexts
  rw [List.mem_filter, List.mem_filter, mem_selection_of_entries h]

/-- Options contribute by whether they are selected, and what is unknown is reported in one order.
-/
theorem selectionContributions_of_entries :
    v.selectionContributions (.list xs) = v.selectionContributions (.list ys) := by
  have hmem := mem_selection_of_entries h
  have hunknown := mem_unknownTexts_of_entries h (v := v)
  have hisIn : ∀ c : Choice, c.isIn (Answer.selection (.list xs))
      = c.isIn (Answer.selection (.list ys)) := by
    intro c
    rw [Bool.eq_iff_iff, isIn_iff, isIn_iff, hmem, hmem]
  have hcontributions : (v.selectionContributions (.list xs)).contributions
      = (v.selectionContributions (.list ys)).contributions := by
    simp only [selectionContributions, hisIn]
  have hissues : (v.selectionContributions (.list xs)).issues
      = (v.selectionContributions (.list ys)).issues := by
    rw [issues_selectionContributions, issues_selectionContributions, isEmpty_congr hunknown,
      Answer.sortTexts_congr (nodup_unknownTexts _ _) (nodup_unknownTexts _ _) hunknown]
  exact congrArg₂ Coerced.mk hcontributions hissues

theorem sameSelection_of_entries (zs : List String) :
    sameSelection (v.canonicalSelection (.list xs)) zs
      = sameSelection (v.canonicalSelection (.list ys)) zs := by
  have hmem := mem_canonicalSelection_of_entries h (v := v)
  rw [Bool.eq_iff_iff]
  simp only [sameSelection, Bool.and_eq_true, List.all_eq_true, List.contains_iff_mem, hmem]

theorem answerContains_of_entries (expected : Value) :
    v.answerContains (.list xs) expected = v.answerContains (.list ys) expected := by
  have hmem := mem_canonicalSelection_of_entries h (v := v)
  have hcommon : (v.canonicalSelection (.list xs)).any (v.canonicalSelection expected).contains
      = (v.canonicalSelection (.list ys)).any (v.canonicalSelection expected).contains := by
    rw [Bool.eq_iff_iff]
    simp only [List.any_eq_true, hmem]
  unfold answerContains
  rw [hcommon]
  cases expected with
  | null => rfl
  | _ => rfl

include hmulti

/-- **Neither order nor repetition of what is selected can be told.** -/
theorem equates_of_entries : v.Equates (.list xs) (.list ys) where
  tests := by
    intro c expected
    have hequals : v.answerEquals (.list xs) expected = v.answerEquals (.list ys) expected := by
      rw [answerEquals_of_isMultiSelect hmulti, answerEquals_of_isMultiSelect hmulti,
        sameSelection_of_entries h]
    cases c with
    | isEmpty => exact isEmpty_congr h
    | isNotEmpty => exact congrArg (!·) (isEmpty_congr h)
    | equals => exact hequals
    | notEquals => exact congrArg (!·) hequals
    | contains => exact answerContains_of_entries h expected
    | greaterThan | lessThan | greaterOrEqual | lessOrEqual =>
      -- what is selected is no number
      simp only [Comparison.holds, comparableNumber?_of_isMultiSelect hmulti]
  contributions := by
    rw [contributions_eq_selectionContributions hmulti,
      contributions_eq_selectionContributions hmulti,
      selectionContributions_of_entries h]

end Entries

end Variable

/-! ## Resolution -/

namespace Resolution

variable {R R' : Resolution} {first second : Answers} {v : Variable} {questions : List Variable}

/-- Two resolutions that have come to the same, but for answers that are not told apart. -/
structure Alike (R R' : Resolution) : Prop where
  resolved : ∀ id, Option.Rel (fun e e' => e.1 = e'.1 ∧ e.1.Equates e.2 e'.2)
    (R.resolved.find? id) (R'.resolved.find? id)
  visibility : R.visibility = R'.visibility
  issues : R.issues = R'.issues

theorem alike_start : Alike .start .start :=
  ⟨fun _ => .none, rfl, rfl⟩

theorem Alike.find?_cases (h : Alike R R') (id : String) :
    (R.resolved.find? id = none ∧ R'.resolved.find? id = none)
      ∨ ∃ w a b, R.resolved.find? id = some (w, a) ∧ R'.resolved.find? id = some (w, b)
        ∧ w.Equates a b := by
  have hrel := h.resolved id
  generalize R.resolved.find? id = e? at hrel ⊢
  generalize R'.resolved.find? id = e'? at hrel ⊢
  cases hrel with
  | none => exact .inl ⟨rfl, rfl⟩
  | @some e e' hrel =>
    obtain ⟨w, a⟩ := e
    obtain ⟨w', b⟩ := e'
    obtain ⟨rfl, hequates⟩ := hrel
    exact .inr ⟨w, a, b, rfl, rfl, hequates⟩

theorem Alike.conditionHolds? (h : Alike R R') (c : Condition) :
    Variable.conditionHolds? R.resolved c = Variable.conditionHolds? R'.resolved c := by
  unfold Variable.conditionHolds?
  rcases h.find?_cases c.dependsOn with ⟨hR, hR'⟩ | ⟨w, a, b, hR, hR', hequates⟩
  · rw [hR, hR']
  · rw [hR, hR']
    exact congrArg some (hequates.tests c.comparison c.expected)

theorem Alike.isVisible (h : Alike R R') (v : Variable) :
    v.isVisible R.resolved = v.isVisible R'.resolved := by
  unfold Variable.isVisible
  simp only [h.conditionHolds?]

theorem Alike.resolutionIssues (h : Alike R R') (v : Variable) :
    v.resolutionIssues R.resolved = v.resolutionIssues R'.resolved := by
  have hcontains : ∀ id, R.resolved.contains id = R'.resolved.contains id := by
    intro id
    rw [← OrderedMap.isSome_find?, ← OrderedMap.isSome_find?]
    rcases h.find?_cases id with ⟨hR, hR'⟩ | ⟨w, a, b, hR, hR', -⟩
    · rw [hR, hR']
    · rw [hR, hR']
      rfl
  unfold Variable.resolutionIssues
  simp only [hcontains]

/-- One step keeps two resolutions alike. -/
theorem Alike.step (h : Alike R R') (hv : v.Equates (rawAnswer v first) (rawAnswer v second)) :
    Alike (step first R v) (step second R' v) where
  resolved := by
    intro id
    rw [step_resolved, step_resolved]
    by_cases hid : id = v.id
    · rw [hid, OrderedMap.find?_insert_self, OrderedMap.find?_insert_self, effectiveValue,
        effectiveValue, h.isVisible]
      refine .some ⟨rfl, ?_⟩
      -- both runs show the variable or both hide it, and a hidden one has its fallback in both
      show v.Equates (if _ then _ else _) (if _ then _ else _)
      split
      · exact hv
      · exact .refl v (fallback v)
    · rw [OrderedMap.find?_insert_of_ne hid, OrderedMap.find?_insert_of_ne hid]
      exact h.resolved id
  visibility := by rw [step_visibility, step_visibility, h.isVisible, h.visibility]
  issues := by rw [step_issues, step_issues, h.resolutionIssues, h.issues]

/-- **Variables are resolved alike** under answers that they do not tell apart. -/
theorem alike_run (h : Alike R R')
    (hquestions : ∀ v ∈ questions, v.Equates (rawAnswer v first) (rawAnswer v second)) :
    Alike (run first R questions) (run second R' questions) := by
  induction questions generalizing R R' with
  | nil => exact h
  | cons v questions ih =>
    obtain ⟨hv, hrest⟩ := List.forall_mem_cons.mp hquestions
    exact ih (h.step hv) hrest

theorem exists_find?_resolved_run {answers : Answers} (hids : (questions.map (·.id)).Nodup)
    (hv : v ∈ questions) :
    ∃ value, (run answers R questions).resolved.find? v.id = some (v, value) := by
  induction questions generalizing R with
  | nil => cases hv
  | cons w questions ih =>
    obtain ⟨hfresh, hrest⟩ := List.nodup_cons.mp hids
    rcases List.mem_cons.mp hv with rfl | hv
    · refine ⟨effectiveValue answers R.resolved v, ?_⟩
      rw [run_cons, find?_resolved_run hfresh, step_resolved, OrderedMap.find?_insert_self]
    · exact ih hrest hv

end Resolution

/-! ## Prices -/

/-- The second result tells what the first one does: what is shown, what is contributed, what
becomes of the expression, what the customer is told, and the price. -/
structure PriceResult.AgreesWith (a b : PriceResult) : Prop where
  visibility : b.resolution.visibility = a.resolution.visibility
  tokens : b.tokens = a.tokens
  substituted : b.substituted = a.substituted
  value : b.value = a.value
  rounded : b.rounded = a.rounded
  clamped : b.clamped = a.clamped
  price : b.price = a.price
  warnings : b.warnings = a.warnings

namespace Formula

variable {f : Formula} {first second : Answers}

section Equates

variable (hids : (f.questions.map (·.id)).Nodup)
  (h : ∀ v ∈ f.questions, v.Equates (Resolution.rawAnswer v first) (Resolution.rawAnswer v second))
include hids h

omit hids in
theorem alike_resolve :
    Resolution.Alike (resolve f.questions first) (resolve f.questions second) := by
  have hrun := Resolution.alike_run Resolution.alike_start h
  exact ⟨hrun.resolved, hrun.visibility, hrun.issues⟩

theorem contributions_of_equates {v : Variable} (hv : v ∈ f.questions) :
    v.contributions (effectiveAnswer (resolve f.questions first).effective v)
      = v.contributions (effectiveAnswer (resolve f.questions second).effective v) := by
  have hfound : ∀ {R : Resolution} {a : Value}, R.resolved.find? v.id = some (v, a) →
      effectiveAnswer R.effective v = a := by
    intro R a ha
    rw [effectiveAnswer, Resolution.effective, OrderedMap.find?_map_values Prod.snd, ha]
    rfl
  obtain ⟨c, hc⟩ : ∃ c, (resolve f.questions first).resolved.find? v.id = some (v, c) :=
    Resolution.exists_find?_resolved_run hids hv
  rcases (alike_resolve h).find?_cases v.id with ⟨hnone, -⟩ | ⟨w, a, b, ha, hb, hequates⟩
  · rw [hc] at hnone
    cases hnone
  · -- no other variable has been resolved under this id
    rw [hc] at ha
    cases ha
    rw [hfound hc, hfound hb]
    exact hequates.contributions

theorem coerced_of_equates : f.coerced first = f.coerced second := by
  have hcontributions : (f.questions.map fun v =>
        v.contributions (effectiveAnswer (resolve f.questions first).effective v))
      = f.questions.map fun v =>
        v.contributions (effectiveAnswer (resolve f.questions second).effective v) :=
    List.map_congr_left fun v hv => contributions_of_equates hids h hv
  exact congrArg (fun cs : List Coerced =>
    (⟨OrderedMap.ofList (cs.flatMap Coerced.contributions), cs.flatMap Coerced.issues⟩ : Coerced))
    hcontributions

theorem resultUnder_of_equates (value : Decimal) (rounded : Int) :
    (f.resultUnder first value rounded).AgreesWith (f.resultUnder second value rounded) := by
  have halike := alike_resolve h
  have hcoerced := coerced_of_equates hids h
  have hfilled : f.filledIn first = f.filledIn second := by rw [filledIn, filledIn, hcoerced]
  have hnotices : f.noticesUnder first = f.noticesUnder second := by
    rw [noticesUnder, noticesUnder, halike.issues, hcoerced, hfilled]
  exact
    { visibility := halike.visibility.symm
      tokens := congrArg Coerced.contributions hcoerced.symm
      substituted := congrArg (fun s : Expression.Substituted => String.ofList s.text) hfilled.symm
      value := rfl
      rounded := rfl
      clamped := rfl
      price := rfl
      warnings := congrArg (fun notices => (onceBy Notice.message [] notices).map Notice.message)
        hnotices.symm }

/-- **Answers that no variable tells apart have the same price**, or the same fault. -/
theorem calculate_of_equates (depth : Nat) :
    (∃ fault, f.calculate first depth = .error fault ∧ f.calculate second depth = .error fault)
      ∨ ∃ a b, f.calculate first depth = .ok a ∧ f.calculate second depth = .ok b
        ∧ a.AgreesWith b := by
  have hfilled : f.filledIn first = f.filledIn second := by
    rw [filledIn, filledIn, coerced_of_equates hids h]
  rcases calculate_of_filledIn rfl hfilled depth with hfault | ⟨value, rounded, hf, hg⟩
  · exact .inl hfault
  · exact .inr ⟨_, _, hf, hg, resultUnder_of_equates hids h value rounded⟩

end Equates

/-- **Neither the order of selected options nor how often they are listed matters.** Let the
variables of a formula have different ids, and let two maps of answers differ in the list given for
one variable with several choices, where both lists have the same entries. Then the formula has the
same fault under both, or two results that tell the same: the same variables are shown, the
contributions, the substituted expression, the warnings and the price are the same, and it is moved
to the same end of its range. -/
theorem calculate_rearranged (hids : (f.questions.map (·.id)).Nodup) {v : Variable}
    (hv : v ∈ f.questions) (hmulti : v.isMultiSelect = true) {xs ys : List Value}
    (hentries : ∀ x, x ∈ xs ↔ x ∈ ys) (hfirst : first.find? v.id = some (.list xs))
    (hsecond : second.find? v.id = some (.list ys))
    (hothers : ∀ id, id ≠ v.id → first.find? id = second.find? id) (depth : Nat) :
    (∃ fault, f.calculate first depth = .error fault ∧ f.calculate second depth = .error fault)
      ∨ ∃ a b, f.calculate first depth = .ok a ∧ f.calculate second depth = .ok b
        ∧ a.AgreesWith b := by
  refine calculate_of_equates hids (fun w hw => ?_) depth
  unfold Resolution.rawAnswer
  by_cases hid : w.id = v.id
  · obtain rfl := List.inj_on_of_nodup_map hids hw hv hid
    rw [hfirst, hsecond]
    exact Variable.equates_of_entries hmulti hentries
  · rw [hothers w.id hid]
    exact .refl w _

/-- A fence with a gate and with paint costs the same if paint is named first and the gate twice. -/
theorem calculate_rearranged_fence :
    ∃ a b, Sample.fence.calculate
        [("length", .int 3), ("extra", .list [.text "gate", .text "paint"])] defaultDepth = .ok a
      ∧ Sample.fence.calculate
        [("length", .int 3), ("extra", .list [.text "paint", .text "gate", .text "gate"])]
        defaultDepth = .ok b
      ∧ a.AgreesWith b ∧ b.price = 191 := by
  let first : Answers := [("length", .int 3), ("extra", .list [.text "gate", .text "paint"])]
  let second : Answers :=
    [("length", .int 3), ("extra", .list [.text "paint", .text "gate", .text "gate"])]
  have hentries : ∀ x, x ∈ [Value.text "gate", .text "paint"]
      ↔ x ∈ [Value.text "paint", .text "gate", .text "gate"] := by
    intro x
    simp only [List.mem_cons, List.not_mem_nil, or_false, or_self]
    exact or_comm
  have hothers : ∀ id, id ≠ Sample.extras.id → first.find? id = second.find? id := by
    intro id hid
    have hother : ¬ id = "extra" := hid
    simp only [first, second, OrderedMap.find?_cons, if_neg hother]
  have hpriced : (Sample.fence.calculate first defaultDepth).toOption.map (·.price) = some 191 := by
    decide
  have hids : (Sample.fence.questions.map (·.id)).Nodup := by decide
  have hextras : Sample.extras ∈ Sample.fence.questions := .tail _ (.head _)
  have hfirst : first.find? Sample.extras.id = some (.list [.text "gate", .text "paint"]) := rfl
  have hsecond : second.find? Sample.extras.id
      = some (.list [.text "paint", .text "gate", .text "gate"]) := rfl
  rcases calculate_rearranged hids hextras rfl hentries hfirst hsecond hothers defaultDepth with
    ⟨fault, hfault, -⟩ | ⟨a, b, ha, hb, hagrees⟩
  · rw [hfault] at hpriced
    cases hpriced
  · rw [ha] at hpriced
    refine ⟨a, b, ha, hb, hagrees, ?_⟩
    rw [hagrees.price]
    exact Option.some.inj hpriced

end Formula

end Tariff

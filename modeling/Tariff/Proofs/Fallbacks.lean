import Tariff.Proofs.Causality
import Tariff.Proofs.Rearranging
import Tariff.Proofs.TypedNumbers

/-!
# Fallbacks that fit

A hidden variable counts as the fallback of its rule, which is coerced like an answer. The check of
the rule and the coercion are written separately: one looks at the shape of a value and at the
options that it names, the other one at what the value comes to in its kind. They meet in
`Variable.Fits`, the shapes that the check accepts (`fits_of_fallbackSuits`). A value of such a
shape is coerced without an issue if it names options only (`issues_contributions_of_fits`), and
where it does not, the report of the check warns of it (`Formula.choiceFor?_of_not_warned`).
-/

namespace Tariff

open Resolution

theorem Kind.hasOptions_of_not_isNumeric {k : Kind} (hnumeric : ¬ k.isNumeric = true)
    (hcheckbox : k ≠ .checkbox) (htext : k ≠ .text) : k.hasOptions = true := by
  cases k with
  | number | stepper | slider => exact absurd rfl hnumeric
  | checkbox => exact absurd rfl hcheckbox
  | text => exact absurd rfl htext
  | dropdown | multipleChoice | select => rfl

namespace Variable

variable {v : Variable} {value : Value}

/-! ## Shapes of fallbacks -/

/-- The values that have the shape of an answer to a variable. -/
inductive Fits (v : Variable) : Value → Prop where
  /-- Nothing is an answer to every question. -/
  | nothing : v.Fits .null
  /-- A number. -/
  | number {value : Value} {n : Number} : v.kind.isNumeric = true → Answer.number? value = some n →
    v.Fits value
  /-- A box that is checked or not. -/
  | checkbox (b : Bool) : v.kind = .checkbox → v.Fits (.bool b)
  /-- A text. -/
  | text (s : String) : v.kind = .text → v.Fits (.text s)
  /-- One option. -/
  | choice {value : Value} : v.kind.hasOptions = true → isScalarAnswer value = true → v.Fits value
  /-- Several options. -/
  | choices {items : List Value} : v.isMultiSelect = true →
    (∀ item ∈ items, isScalarAnswer item = true) → v.Fits (.list items)

/-- **What suits a variable has the shape of an answer to it.** -/
theorem fits_of_fallbackSuits (h : v.fallbackSuits value = true) : v.Fits value := by
  unfold fallbackSuits at h
  split at h
  · exact .nothing
  · split at h
    · next hnumeric =>
      obtain ⟨n, hn⟩ := Option.isSome_iff_exists.mp (Bool.and_eq_true_iff.mp h).2
      exact .number hnumeric hn
    · next hnumeric =>
      split at h
      · next hkind =>
        cases value with
        | bool b => exact .checkbox b hkind
        | _ => cases h
      · next hkind =>
        cases value with
        | text s => exact .text s hkind
        | _ => cases h
      · next hcheckbox htext =>
        have hoptions := Kind.hasOptions_of_not_isNumeric hnumeric hcheckbox htext
        split at h
        · obtain ⟨hmulti, hall⟩ := Bool.and_eq_true_iff.mp h
          exact .choices hmulti (List.all_eq_true.mp hall)
        · exact .choice hoptions h

/-! ## Coercion without issues -/

theorem isChecked_of_isEmpty (h : Answer.isEmpty value = true) :
    Answer.isChecked value = false := by
  cases value with
  | null => rfl
  | text s =>
    have hstrip : Text.strip s = "" := by
      rw [Text.strip, List.isEmpty_iff.mp h]
    rw [Answer.isChecked, hstrip]
    decide
  | list items =>
    have hitems : items.isEmpty = true := h
    rw [Answer.isChecked, hitems, Bool.not_true]
  | bool b | int n | float x | record fields => cases h

theorem choiceContribution_of_isEmpty {amount : Choice → Number} {issues : List CoercionIssue}
    (h : Answer.isEmpty value = true) :
    v.choiceContribution amount value issues = v.contributing (.number .zero) issues :=
  if_pos h

/-- **All answers that say nothing are one**, whatever is asked. -/
theorem contributions_of_isEmpty (h : Answer.isEmpty value = true) :
    v.contributions value = v.contributions .null := by
  have hchoice : ∀ amount, v.choiceContribution amount value []
      = v.choiceContribution amount .null [] := fun amount => by
    rw [choiceContribution_of_isEmpty h, choiceContribution_of_isEmpty rfl]
  unfold contributions
  cases v.kind with
  | number | stepper | slider =>
    show v.numericContribution value = _
    rw [numericContribution, if_pos h]
    rfl
  | text => rfl
  | checkbox =>
    show v.contributing (.text (if Answer.isChecked value then _ else _)) [] = _
    rw [isChecked_of_isEmpty h]
    rfl
  | dropdown | select => exact hchoice _
  | multipleChoice =>
    show (if v.allowsSeveral then _ else _) = (if v.allowsSeveral then _ else _ : Coerced)
    split
    · have hselection : Answer.selection value = [] := if_pos h
      rw [selectionContributions, hselection]
      rfl
    · -- of a list the first entry counts, and an empty one has none
      cases value with
      | list items =>
        cases items with
        | nil => rfl
        | cons item items => cases h
      | _ => exact hchoice _

/-- **An answer that says nothing is coerced**, whatever is asked. -/
theorem issues_contributions_of_isEmpty (h : Answer.isEmpty value = true) :
    (v.contributions value).issues = [] := by
  rw [contributions_of_isEmpty h]
  unfold contributions
  cases v.kind with
  | multipleChoice =>
    show (if v.allowsSeveral then _ else _ : Coerced).issues = []
    split <;> rfl
  | _ => rfl

theorem issues_contributions_of_isMultiSelect (hmulti : v.isMultiSelect = true)
    (h : ∀ s ∈ Answer.selection value, (v.choiceNamed? s).isSome = true) :
    (v.contributions value).issues = [] := by
  have hnone : v.unknownTexts value = [] := by
    refine List.filter_eq_nil_iff.mpr fun s hs hunknown => ?_
    have hnamed := h s hs
    rw [choiceNamed?_eq_none_iff.mpr (by simpa using hunknown)] at hnamed
    cases hnamed
  rw [contributions_eq_selectionContributions hmulti, issues_selectionContributions, hnone]
  rfl

/-- A scalar that says something is one answer, and the only option that a fallback names by it. -/
theorem fallbackNames_of_isScalarAnswer (hscalar : isScalarAnswer value = true)
    (hempty : ¬ Answer.isEmpty value = true) :
    Answer.isSingle value = true ∧ fallbackNames value = [value] := by
  cases value with
  | text s =>
    have hne : s ≠ "" := Text.ne_empty_of_not_blank (Bool.not_eq_true _ ▸ hempty)
    exact ⟨by simpa [Answer.isSingle] using hempty, by simp [fallbackNames, hne]⟩
  | int n | float x => exact ⟨rfl, rfl⟩
  | _ => cases hscalar

theorem choiceNamed?_of_choiceFor? (h : (v.choiceFor? value).isSome = true) :
    (v.choiceNamed? value.plain).isSome = true := by
  cases value with
  | null => cases h
  | _ => exact h

/-- **A value that has the shape of an answer is coerced** if all that it names are options. -/
theorem issues_contributions_of_fits (h : v.Fits value)
    (hnames : v.kind.hasOptions = true →
      ∀ name ∈ fallbackNames value, (v.choiceFor? name).isSome = true) :
    (v.contributions value).issues = [] := by
  by_cases hempty : Answer.isEmpty value = true
  · exact issues_contributions_of_isEmpty hempty
  cases h with
  | nothing => exact absurd rfl hempty
  | number hkind hn =>
    rw [contributions_of_number? hkind hn]
    rfl
  | checkbox b hkind | text s hkind =>
    unfold contributions
    rw [hkind]
    rfl
  | choice hoptions hscalar =>
    obtain ⟨hsingle, honly⟩ := fallbackNames_of_isScalarAnswer hscalar hempty
    have hnamed := choiceNamed?_of_choiceFor?
      (hnames hoptions value (by rw [honly]; exact List.mem_singleton_self _))
    -- where several options may be chosen, one may be given alone
    by_cases hmulti : v.isMultiSelect = true
    · refine issues_contributions_of_isMultiSelect hmulti fun s hs => ?_
      rw [selection_of_isSingle hsingle] at hs
      rwa [List.mem_singleton.mp hs]
    · obtain ⟨c, hc⟩ := Option.isSome_iff_exists.mp hnamed
      rw [contributions_of_choiceNamed? hoptions hmulti hsingle hc]
      rfl
  | choices hmulti _ =>
    refine issues_contributions_of_isMultiSelect hmulti fun s hs => ?_
    obtain ⟨item, hitem, -, rfl⟩ := Answer.mem_selection_list.mp hs
    exact choiceNamed?_of_choiceFor? (hnames (hasOptions_of_isMultiSelect hmulti) item hitem)

/-! ## The variable of an issue -/

section Issues

variable {i : CoercionIssue}

theorem variableId_numericContribution (h : i ∈ (v.numericContribution value).issues) :
    i.variableId = v.id := by
  unfold numericContribution at h
  split at h
  · cases h
  · split at h
    · cases h
    · rw [List.mem_singleton.mp h]

theorem variableId_choiceContribution {amount : Choice → Number} {issues : List CoercionIssue}
    (hissues : ∀ i ∈ issues, i.variableId = v.id)
    (h : i ∈ (v.choiceContribution amount value issues).issues) : i.variableId = v.id := by
  unfold choiceContribution at h
  split at h
  · exact hissues i h
  · split at h
    · exact hissues i h
    · rcases List.mem_append.mp h with h | h
      · exact hissues i h
      · rw [List.mem_singleton.mp h]

/-- Every issue is one of the variable that is coerced. -/
theorem variableId_of_mem_issues (h : i ∈ (v.contributions value).issues) :
    i.variableId = v.id := by
  have hnone : ∀ i ∈ ([] : List CoercionIssue), i.variableId = v.id := List.forall_mem_nil _
  unfold contributions at h
  cases hkind : v.kind with
  | number | stepper | slider =>
    rw [hkind] at h
    exact variableId_numericContribution h
  | text | checkbox =>
    rw [hkind] at h
    cases h
  | dropdown | select =>
    rw [hkind] at h
    exact variableId_choiceContribution hnone h
  | multipleChoice =>
    rw [hkind] at h
    dsimp only at h
    split at h
    · rw [issues_selectionContributions] at h
      split at h
      · cases h
      · rw [List.mem_singleton.mp h]
    · refine variableId_choiceContribution (fun j hj => ?_) h
      split at hj
      · rw [List.mem_singleton.mp hj]
      · cases hj

end Issues

/-! ## Fallbacks of hidden variables -/

/-- A variable that is hidden has a rule in force, and its fallback is that of the rule. -/
theorem exists_activeRule?_of_not_isVisible {resolved : Resolved}
    (h : v.isVisible resolved = false) :
    ∃ rule, v.activeRule? = some rule ∧ fallback v = rule.fallback := by
  cases hrule : v.activeRule? with
  | none =>
    rw [isVisible, hrule] at h
    cases h
  | some rule =>
    have hany : v.rule? = some rule := (Option.filter_eq_some_iff.mp hrule).1
    exact ⟨rule, rfl, by rw [fallback, hany]; rfl⟩

end Variable

namespace Formula

variable {f : Formula} {unitLimit : Int} {report : Report} {v : Variable} {rule : VisibilityRule}

section Checked

variable (h : f.validate unitLimit = .ok report) (hv : v ∈ f.questions)
  (hrule : v.activeRule? = some rule)
include h hv hrule

theorem fallbackSuits_of_valid (hvalid : report.valid = true) :
    v.fallbackSuits rule.fallback = true := by
  obtain ⟨place, hplace⟩ := List.mem_iff_getElem?.mp hv
  have hdefects := (List.append_eq_nil_iff.mp (defectsAt_of_valid h hvalid hplace)).2
  simp only [Variable.ruleDefects, hrule, List.append_eq_nil_iff] at hdefects
  by_contra hunfit
  rw [if_neg hunfit] at hdefects
  cases hdefects.2

/-- **The report warns of a fallback that names no option.** -/
theorem choiceFor?_of_not_warned (hoptions : v.kind.hasOptions = true)
    (hsuits : v.fallbackSuits rule.fallback = true) {name : Value}
    (hname : name ∈ Variable.fallbackNames rule.fallback)
    (hsilent : (Advice.unmatchedFallback v.id name).message ∉ report.warnings) :
    (v.choiceFor? name).isSome = true := by
  by_contra hunmatched
  obtain ⟨place, hplace⟩ := List.mem_iff_getElem?.mp hv
  have hown : .unmatchedFallback v.id name ∈ v.ruleAdvice f.questions place := by
    simp only [Variable.ruleAdvice, hrule, hoptions, hsuits, Bool.and_self, if_true]
    refine List.mem_append_right _ (List.mem_map.mpr ⟨name, List.mem_filter.mpr ⟨hname, ?_⟩, rfl⟩)
    simpa using hunmatched
  have hadvice : .unmatchedFallback v.id name ∈ f.advice :=
    List.mem_append_left _
      (List.mem_flatMap.mpr ⟨(v, place), List.mk_mem_zipIdx_iff_getElem?.mpr hplace, hown⟩)
  exact hsilent (message_mem_warnings h hadvice)

end Checked

/-- **What is hidden is coerced.** If the check of a formula finds nothing wrong and does not warn
that a fallback names no option, then under all answers the effective value of every hidden variable
is coerced without an issue, and no issue of the formula is one of a hidden variable. -/
theorem coerces_hidden (h : f.validate unitLimit = .ok report) (hvalid : report.valid = true)
    (hmatched : ∀ id value, (Advice.unmatchedFallback id value).message ∉ report.warnings)
    (answers : Answers) (hv : v ∈ f.questions)
    (hhidden : (resolve f.questions answers).visibility.find? v.id = some false) :
    ∃ value, (resolve f.questions answers).effective.find? v.id = some value
      ∧ (v.contributions value).issues = []
      ∧ ∀ i ∈ (f.coerced answers).issues, i.variableId ≠ v.id := by
  have hids := nodup_ids_of_valid h hvalid
  obtain ⟨earlier, hinvisible, -⟩ := exists_not_isVisible hids hv hhidden
  obtain ⟨rule, hrule, hfallback⟩ := Variable.exists_activeRule?_of_not_isVisible hinvisible
  have hsuits := fallbackSuits_of_valid h hv hrule hvalid
  have hissues : (v.contributions (fallback v)).issues = [] := by
    rw [hfallback]
    exact Variable.issues_contributions_of_fits (Variable.fits_of_fallbackSuits hsuits)
      fun hoptions name hname =>
        choiceFor?_of_not_warned h hv hrule hoptions hsuits hname (hmatched _ _)
  have heffective := find?_effective_of_hidden hids hv hhidden
  refine ⟨_, heffective, hissues, fun i hi hid => ?_⟩
  obtain ⟨_, hc, hi⟩ := List.mem_flatMap.mp hi
  obtain ⟨w, hw, rfl⟩ := List.mem_map.mp hc
  -- an issue under the id of the variable is one of its own
  obtain rfl : w = v :=
    List.inj_on_of_nodup_map hids hw hv ((Variable.variableId_of_mem_issues hi).symm.trans hid)
  rw [heffective, Option.getD_some, hissues] at hi
  cases hi

/-- Nobody can tell how long the fence is, but that it has a gate is understood. -/
theorem coerces_hidden_gate :
    ∃ value,
      (resolve Sample.gatedFence.questions [("length", .text "long")]).effective.find? "extra"
        = some value
      ∧ (Sample.gateOrExtras.contributions value).issues = []
      ∧ ∀ i ∈ (Sample.gatedFence.coerced [("length", .text "long")]).issues,
        i.variableId ≠ "extra" := by
  have hreport : Sample.gatedFence.validate defaultUnitLimit
      = .ok (Report.of (Sample.gatedFence.definitionErrors defaultUnitLimit)
        Sample.gatedFence.advice) :=
    validate_eq_ok_iff.mpr ⟨by decide, rfl⟩
  have hclean : (Report.of (Sample.gatedFence.definitionErrors defaultUnitLimit)
      Sample.gatedFence.advice).warnings = [] := by
    decide +kernel
  refine coerces_hidden (v := Sample.gateOrExtras) hreport (by decide) (fun id value => ?_) _
    (.tail _ (.head _)) (by decide +kernel)
  rw [hclean]
  exact List.not_mem_nil

end Formula

end Tariff

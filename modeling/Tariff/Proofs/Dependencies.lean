import Mathlib.Data.List.Nodup
import Tariff.Proofs.Resolution
import Tariff.Proofs.Sample
import Tariff.Proofs.Validation

/-!
# Dependencies of conditions

A condition has to name a variable that comes earlier. This is checked twice: before a formula is
stored, by the last place of every id (`Variable.lastPlace?`), and while answers are resolved, by
what has been resolved so far. `danglingConditions` says directly which conditions fail, and both
checks are compared with it:

* `issues_resolve` — under all answers the resolution has an issue for each dangling condition;
* `Variable.conditionDefect?_eq_none_iff` — if no two variables have one id, a condition is found
  faulty exactly if it dangles.

So the two checks agree (`Formula.dependencies_agree`), and answers have no part in it.
-/

namespace Tariff

/-- The conditions of a variable that name none of some ids. -/
def Variable.danglingConditions (v : Variable) (earlier : List String) : List ResolutionIssue :=
  (v.conditions.filter fun c => c.dependsOn ∉ earlier).map fun c => ⟨v.id, c.dependsOn⟩

/-- The conditions in force that do not name an earlier variable, variable by variable. -/
def danglingConditions (questions : List Variable) : List ResolutionIssue :=
  questions.zipIdx.flatMap fun e => e.1.danglingConditions ((questions.take e.2).map (·.id))

theorem Variable.danglingConditions_congr {v : Variable} {xs ys : List String}
    (h : ∀ id, id ∈ xs ↔ id ∈ ys) : v.danglingConditions xs = v.danglingConditions ys := by
  simp only [danglingConditions, h]

theorem Variable.danglingConditions_eq_nil_iff {v : Variable} {earlier : List String} :
    v.danglingConditions earlier = [] ↔ ∀ c ∈ v.conditions, c.dependsOn ∈ earlier := by
  simp [danglingConditions, List.filter_eq_nil_iff]

theorem danglingConditions_eq_nil_iff {questions : List Variable} :
    danglingConditions questions = []
      ↔ ∀ v place, questions[place]? = some v →
        ∀ c ∈ v.conditions, c.dependsOn ∈ (questions.take place).map (·.id) := by
  rw [danglingConditions, List.flatMap_eq_nil_iff]
  constructor
  · intro h v place hv
    have hplace := h (v, place) (List.mk_mem_zipIdx_iff_getElem?.mpr hv)
    exact Variable.danglingConditions_eq_nil_iff.mp hplace
  · rintro h ⟨v, place⟩ he
    exact Variable.danglingConditions_eq_nil_iff.mpr
      (h v place (List.mk_mem_zipIdx_iff_getElem?.mp he))

/-! ## Issues of the resolution -/

theorem Variable.resolutionIssues_eq (v : Variable) (resolved : Resolved) :
    v.resolutionIssues resolved = v.danglingConditions resolved.keys := by
  have hkeep : ∀ c : Condition,
      (!resolved.contains c.dependsOn) = decide (c.dependsOn ∉ resolved.keys) := by
    intro c
    rw [Bool.eq_iff_iff, decide_eq_true_iff, ← OrderedMap.contains_iff, Bool.not_eq_true',
      Bool.not_eq_true]
  simp only [resolutionIssues, danglingConditions, hkeep]

/-- A run that starts where some variables are resolved has an issue for every condition that names
neither one of these nor one that the run came by before. -/
theorem Resolution.issues_run {answers : Answers} {r : Resolution} {before rest : List Variable}
    (hresolved : ∀ id, id ∈ r.resolved.keys ↔ id ∈ before.map (·.id)) :
    (run answers r rest).issues
      = r.issues ++ (rest.zipIdx before.length).flatMap fun e =>
          e.1.danglingConditions (((before ++ rest).take e.2).map (·.id)) := by
  induction rest generalizing before r with
  | nil => simp
  | cons v rest ih =>
    have hnext : ∀ id, id ∈ (step answers r v).resolved.keys ↔ id ∈ (before ++ [v]).map (·.id) := by
      intro id
      rw [mem_keys_resolved_step, hresolved, List.map_append, List.mem_append, or_comm]
      simp
    have hsplit : before ++ v :: rest = before ++ [v] ++ rest := by simp
    have hown : v.resolutionIssues r.resolved
        = v.danglingConditions (((before ++ [v] ++ rest).take before.length).map (·.id)) := by
      rw [Variable.resolutionIssues_eq, List.append_assoc, List.take_left]
      exact Variable.danglingConditions_congr hresolved
    rw [run_cons, ih hnext, step_issues, List.zipIdx_cons, List.flatMap_cons, hsplit, hown,
      List.append_assoc, List.length_append]
    rfl

/-- **Under all answers the issues are the dangling conditions.** -/
theorem issues_resolve (questions : List Variable) (answers : Answers) :
    (resolve questions answers).issues = danglingConditions questions := by
  have hstart : ∀ id, id ∈ Resolution.start.resolved.keys
      ↔ id ∈ ([] : List Variable).map (·.id) := fun _ => Iff.rfl
  exact Resolution.issues_run hstart

/-! ## Places of ids -/

namespace Variable

/-- The search for the last variable with an id finds one, or keeps what it had. -/
theorem foldl_last_cases {id : String} (xs : List (Variable × Nat))
    (found : Option (Variable × Nat)) :
    (∃ e ∈ xs, e.1.id = id
        ∧ xs.foldl (fun found e => if e.1.id = id then some e else found) found = some e)
      ∨ (∀ e ∈ xs, e.1.id ≠ id)
        ∧ xs.foldl (fun found e => if e.1.id = id then some e else found) found = found := by
  induction xs generalizing found with
  | nil => exact Or.inr ⟨by simp, rfl⟩
  | cons x xs ih =>
    rw [List.foldl_cons]
    rcases ih (if x.1.id = id then some x else found) with ⟨e, he, hid, hlast⟩ | ⟨hnone, hlast⟩
    · exact Or.inl ⟨e, List.mem_cons_of_mem _ he, hid, hlast⟩
    · rw [hlast]
      by_cases hx : x.1.id = id
      · exact Or.inl ⟨x, List.mem_cons_self, hx, if_pos hx⟩
      · exact Or.inr ⟨List.forall_mem_cons.mpr ⟨hx, hnone⟩, if_neg hx⟩

theorem lastPlace?_cases (questions : List Variable) (id : String) :
    (∃ v place, questions[place]? = some v ∧ v.id = id
        ∧ lastPlace? questions id = some (v, place))
      ∨ (∀ v ∈ questions, v.id ≠ id) ∧ lastPlace? questions id = none := by
  rcases foldl_last_cases questions.zipIdx none with ⟨⟨v, place⟩, he, hid, hlast⟩ | ⟨hnone, hlast⟩
  · exact Or.inl ⟨v, place, List.mk_mem_zipIdx_iff_getElem?.mp he, hid, hlast⟩
  · refine Or.inr ⟨fun v hv => ?_, hlast⟩
    obtain ⟨place, hplace⟩ := List.mem_iff_getElem?.mp hv
    exact hnone (v, place) (List.mk_mem_zipIdx_iff_getElem?.mpr hplace)

/-- Where no two variables have one id, an id stands before a place exactly if the place of its
variable does. -/
theorem mem_take_iff_lt {questions : List Variable} (hids : (questions.map (·.id)).Nodup)
    {v : Variable} {p place : Nat} (hv : questions[p]? = some v) :
    v.id ∈ (questions.take place).map (·.id) ↔ p < place := by
  constructor
  · intro hmem
    obtain ⟨w, hw, hwid⟩ := List.mem_map.mp hmem
    obtain ⟨q, hq⟩ := List.mem_iff_getElem?.mp hw
    obtain ⟨hlt, hq⟩ : q < place ∧ questions[q]? = some w := by
      rw [List.getElem?_take] at hq
      split at hq
      · next hlt => exact ⟨hlt, hq⟩
      · cases hq
    have hsame : (questions.map (·.id))[q]? = (questions.map (·.id))[p]? := by
      rw [List.getElem?_map, List.getElem?_map, hq, hv, Option.map_some, Option.map_some, hwid]
    have hbound : q < (questions.map (·.id)).length := by
      rw [List.length_map]
      exact (List.getElem?_eq_some_iff.mp hq).1
    rw [← (List.getElem?_inj hbound hids).mp hsame]
    exact hlt
  · intro hlt
    have hmem : v ∈ questions.take place :=
      List.mem_iff_getElem?.mpr ⟨p, by rw [List.getElem?_take_of_lt hlt, hv]⟩
    exact List.mem_map.mpr ⟨v, hmem, rfl⟩

/-- **A condition is found faulty exactly if it names no earlier variable.** -/
theorem conditionDefect?_eq_none_iff {questions : List Variable}
    (hids : (questions.map (·.id)).Nodup) {place : Nat} {c : Condition} :
    conditionDefect? questions place c = none
      ↔ c.dependsOn ∈ (questions.take place).map (·.id) := by
  unfold conditionDefect?
  rcases lastPlace?_cases questions c.dependsOn with ⟨v, p, hv, hid, hlast⟩ | ⟨hnone, hlast⟩
  · rw [hlast, ← hid, mem_take_iff_lt hids hv]
    simp
  · rw [hlast]
    simp only [reduceCtorEq, false_iff]
    intro hmem
    obtain ⟨v, hv, hid⟩ := List.mem_map.mp hmem
    exact hnone v (List.mem_of_mem_take hv) hid

end Variable

/-! ## Defects of dependencies -/

namespace Defect

/-- A condition names no variable, or one that does not come earlier. -/
def IsDependency (d : Defect) : Prop :=
  d.code = "unknown_dependency" ∨ d.code = "forward_dependency"

@[simp] theorem isDependency_unknown (id : String) : (unknownDependency id).IsDependency :=
  Or.inl rfl

@[simp] theorem isDependency_later (id : String) : (laterDependency id).IsDependency :=
  Or.inr rfl

theorem isDependency_of_conditionDefect? {questions : List Variable} {place : Nat} {c : Condition}
    {d : Defect} (h : Variable.conditionDefect? questions place c = some d) : d.IsDependency := by
  unfold Variable.conditionDefect? at h
  split at h
  · cases h
    exact isDependency_unknown _
  · split at h
    · cases h
      exact isDependency_later _
    · cases h

/-- A defect that is found under some condition, and is not about a dependency. -/
theorem not_isDependency_of_mem_guard {p : Prop} [Decidable p] {d d' : Defect}
    (h : d ∈ if p then [d'] else []) (hd : ¬ d'.IsDependency) : ¬ d.IsDependency := by
  split at h
  · obtain rfl := List.mem_singleton.mp h
    exact hd
  · cases h

theorem not_isDependency_of_mem_idDefects {v : Variable} {others : List Variable} {d : Defect}
    (h : d ∈ v.idDefects others) : ¬ d.IsDependency := by
  unfold Variable.idDefects at h
  split at h
  · obtain rfl := List.mem_singleton.mp h
    simp [IsDependency, code]
  · obtain ⟨o, -, ho⟩ := List.mem_filterMap.mp h
    split at ho
    · cases ho
      simp [IsDependency, code]
    · split at ho
      · cases ho
        simp [IsDependency, code]
      · cases ho

theorem not_isDependency_of_mem_rangeDefects {v : Variable} {d : Defect}
    (h : d ∈ v.rangeDefects) : ¬ d.IsDependency := by
  unfold Variable.rangeDefects at h
  split at h
  · cases h
  · rcases List.mem_append.mp h with hrange | hstep
    · split at hrange
      · exact not_isDependency_of_mem_guard hrange (by simp [IsDependency, code])
      · cases hrange
    · split at hstep
      · exact not_isDependency_of_mem_guard hstep (by simp [IsDependency, code])
      · cases hstep

theorem not_isDependency_of_mem_duplicateChoices {ids values : List String} {cs : List Choice}
    {d : Defect} (h : d ∈ Variable.duplicateChoices ids values cs) : ¬ d.IsDependency := by
  induction cs generalizing ids values with
  | nil => cases h
  | cons c cs ih =>
    rw [Variable.duplicateChoices] at h
    split at h
    · rcases List.mem_cons.mp h with rfl | h
      · simp [IsDependency, code]
      · exact ih h
    · exact ih h

theorem not_isDependency_of_mem_choiceDefects {v : Variable} {d : Defect}
    (h : d ∈ v.choiceDefects) : ¬ d.IsDependency := by
  unfold Variable.choiceDefects at h
  split at h
  · cases h
  · rcases List.mem_append.mp h with hempty | hduplicate
    · exact not_isDependency_of_mem_guard hempty (by simp [IsDependency, code])
    · exact not_isDependency_of_mem_duplicateChoices hduplicate

theorem not_isDependency_of_mem_ownDefects {v : Variable} {others : List Variable}
    {unitLimit : Int} {d : Defect} (h : d ∈ v.ownDefects others unitLimit) :
    ¬ d.IsDependency := by
  simp only [Variable.ownDefects, List.mem_append] at h
  rcases h with (((hname | hid) | hunit) | hrange) | hchoice
  · exact not_isDependency_of_mem_guard hname (by simp [IsDependency, code])
  · exact not_isDependency_of_mem_idDefects hid
  · exact not_isDependency_of_mem_guard hunit (by simp [IsDependency, code])
  · exact not_isDependency_of_mem_rangeDefects hrange
  · exact not_isDependency_of_mem_choiceDefects hchoice

/-- Of the defects of a rule those of its conditions are the ones about dependencies. -/
theorem mem_ruleDefects_iff {v : Variable} {questions : List Variable} {place : Nat} {d : Defect}
    (hd : d.IsDependency) :
    d ∈ v.ruleDefects questions place
      ↔ ∃ c ∈ v.conditions, Variable.conditionDefect? questions place c = some d := by
  unfold Variable.ruleDefects Variable.conditions
  cases v.activeRule? with
  | none => simp
  | some rule =>
    have hfallback : d ∉ if v.fallbackSuits rule.fallback then []
        else [unfitFallback rule.fallback v.kind] := by
      intro hmem
      split at hmem
      · cases hmem
      · obtain rfl := List.mem_singleton.mp hmem
        revert hd
        simp [IsDependency, code]
    rw [List.mem_append, or_iff_left hfallback, List.mem_filterMap]
    rfl

end Defect

namespace Formula

variable {f : Formula} {unitLimit : Int}

theorem not_isDependency_of_mem_rangeDefects {d : Defect} (h : d ∈ f.rangeDefects) :
    ¬ d.IsDependency := by
  unfold rangeDefects at h
  split at h
  · exact Defect.not_isDependency_of_mem_guard h (by simp [Defect.IsDependency, Defect.code])
  · cases h

/-- The errors about dependencies are those of the conditions of some variable. -/
theorem exists_isDependency_iff :
    (∃ e ∈ f.definitionErrors unitLimit, e.defect.IsDependency)
      ↔ ∃ v place, f.questions[place]? = some v ∧ ∃ c ∈ v.conditions,
        Variable.conditionDefect? f.questions place c ≠ none := by
  constructor
  · rintro ⟨e, he, hd⟩
    rcases List.mem_append.mp he with he | he
    · obtain ⟨⟨v, place⟩, hv, he⟩ := List.mem_flatMap.mp he
      obtain ⟨d, hmem, rfl⟩ := List.mem_map.mp he
      have hrule : d ∈ v.ruleDefects f.questions place :=
        (List.mem_append.mp hmem).resolve_left fun h =>
          Defect.not_isDependency_of_mem_ownDefects h hd
      obtain ⟨c, hc, hdefect⟩ := (Defect.mem_ruleDefects_iff hd).mp hrule
      exact ⟨v, place, List.mk_mem_zipIdx_iff_getElem?.mp hv, c, hc, by simp [hdefect]⟩
    · obtain ⟨d, hmem, rfl⟩ := List.mem_map.mp he
      exact absurd hd (not_isDependency_of_mem_rangeDefects hmem)
  · rintro ⟨v, place, hv, c, hc, hdefect⟩
    obtain ⟨d, hsome⟩ := Option.ne_none_iff_exists'.mp hdefect
    have hd := Defect.isDependency_of_conditionDefect? hsome
    have hrule := (Defect.mem_ruleDefects_iff hd).mpr ⟨c, hc, hsome⟩
    refine ⟨⟨v.id, d⟩, List.mem_append_left _ (List.mem_flatMap.mpr ⟨(v, place), ?_, ?_⟩), hd⟩
    · exact List.mk_mem_zipIdx_iff_getElem?.mpr hv
    · exact List.mem_map.mpr ⟨d, List.mem_append_right _ hrule, rfl⟩

/-- A report keeps an error about a dependency if there is one. -/
theorem exists_isDependency_report_iff {report : Report}
    (h : f.validate unitLimit = .ok report) :
    (∃ e ∈ report.errors, e.defect.IsDependency)
      ↔ ∃ e ∈ f.definitionErrors unitLimit, e.defect.IsDependency := by
  obtain ⟨-, rfl⟩ := validate_eq_ok_iff.mp h
  constructor
  · rintro ⟨e, he, hd⟩
    exact ⟨e, mem_of_mem_onceBy he, hd⟩
  · rintro ⟨e, he, hd⟩
    obtain ⟨e', he', htext⟩ :
        ∃ e' ∈ onceBy DefinitionError.text [] (f.definitionErrors unitLimit), e'.text = e.text :=
      exists_mem_onceBy he List.not_mem_nil
    refine ⟨e', he', ?_⟩
    rw [Defect.IsDependency, DefinitionError.code_eq_of_text_eq htext]
    exact hd

/-- A report has no error about a dependency exactly if no condition dangles. -/
theorem no_isDependency_report_iff (hids : (f.questions.map (·.id)).Nodup) {report : Report}
    (h : f.validate unitLimit = .ok report) :
    (∀ e ∈ report.errors, ¬ e.defect.IsDependency) ↔ danglingConditions f.questions = [] := by
  rw [danglingConditions_eq_nil_iff]
  have hreport := exists_isDependency_report_iff h
  rw [exists_isDependency_iff] at hreport
  constructor
  · intro hnone v place hv c hc
    rw [← Variable.conditionDefect?_eq_none_iff hids]
    by_contra hdefect
    obtain ⟨e, he, hd⟩ := hreport.mpr ⟨v, place, hv, c, hc, hdefect⟩
    exact hnone e he hd
  · intro hall e he hd
    obtain ⟨v, place, hv, c, hc, hdefect⟩ := hreport.mp ⟨e, he, hd⟩
    exact hdefect ((Variable.conditionDefect?_eq_none_iff hids).mpr (hall v place hv c hc))

/-- The check of a formula and the resolution of its variables agree on dependencies. A check gives
a report whenever all units have a length, and it reports no error about a dependency exactly if
there is no issue under some answers, or under all. The issues are the same under all answers: one
for each condition in force that does not name an earlier variable. -/
theorem dependencies_agree (hids : (f.questions.map (·.id)).Nodup) (unitLimit : Int) :
    ((∃ report, f.validate unitLimit = .ok report) ↔ ∀ v ∈ f.questions, v.IsMeasured)
      ∧ (∀ report, f.validate unitLimit = .ok report →
        ((∀ e ∈ report.errors, ¬ e.defect.IsDependency)
            ↔ ∃ answers, (resolve f.questions answers).issues = [])
          ∧ ((∃ answers, (resolve f.questions answers).issues = [])
            ↔ ∀ answers, (resolve f.questions answers).issues = []))
      ∧ ∀ answers, (resolve f.questions answers).issues = danglingConditions f.questions := by
  refine ⟨?_, fun report h => ?_, issues_resolve f.questions⟩
  · constructor
    · rintro ⟨report, h⟩
      exact (validate_eq_ok_iff.mp h).1
    · intro hmeasured
      exact ⟨_, validate_eq_ok_iff.mpr ⟨hmeasured, rfl⟩⟩
  · simp only [issues_resolve, exists_const, forall_const, iff_self, and_true]
    exact no_isDependency_report_iff hids h

/-- The only condition for a fence is on its length, which is asked first. -/
theorem dependencies_agree_fence :
    (∀ answers, (resolve Sample.fence.questions answers).issues = [])
      ∧ ∃ report, Sample.fence.validate defaultUnitLimit = .ok report
        ∧ ∀ e ∈ report.errors, ¬ e.defect.IsDependency := by
  have hids : (Sample.fence.questions.map (·.id)).Nodup := by decide
  have hmeasured : ∀ v ∈ Sample.fence.questions, v.IsMeasured := by decide
  obtain ⟨hreport, hagree, hissues⟩ := dependencies_agree hids defaultUnitLimit
  have hnone : ∀ answers, (resolve Sample.fence.questions answers).issues = [] := by
    intro answers
    rw [hissues]
    decide
  obtain ⟨report, h⟩ := hreport.mpr hmeasured
  exact ⟨hnone, report, h, (hagree report h).1.mpr ⟨[], hnone []⟩⟩

end Formula

end Tariff

import Mathlib.Data.List.InsertIdx
import Tariff.Proofs.Dependencies

/-!
# Conditions that are offered

A designer who makes a variable depend on another one is offered the earlier variables that are
always shown (`availableDependencies`), and for each of them the comparisons that suit its kind
(`Comparison.offered`). `Formula.offered_conditions_fit` says that whatever is chosen from them may
be taken up: the check of the formula gives the same report as before, and the resolution has the
same issues, none of them for the new condition.

The other variables do not see the rule of a variable. So what is found in them is found by the
`bare` variables alone, and it stays when a rule changes (`Variable.defectsAt_congr`,
`Formula.expressionAdvice_congr`). What is found in the variable itself stays because the
new condition names an earlier variable (`Variable.ruleDefects_withCondition`,
`Variable.ruleAdvice_withCondition`).
-/

namespace Tariff

/-! ## One more condition -/

namespace Variable

/-- The rule of a variable with one more condition. A variable that has no rule in force gets one
that has this condition and no fallback. -/
def ruleWith (v : Variable) (c : Condition) : VisibilityRule :=
  match v.activeRule? with
  | some rule => { rule with conditions := rule.conditions ++ [c] }
  | none => ⟨true, .and, [c], .null⟩

/-- A variable with one more condition. -/
def withCondition (v : Variable) (c : Condition) : Variable :=
  { v with rule? := some (v.ruleWith c) }

variable {v : Variable} {c : Condition}

theorem activeRule?_withCondition (v : Variable) (c : Condition) :
    (v.withCondition c).activeRule? = some (v.ruleWith c) := by
  have henabled : (v.ruleWith c).enabled = true := by
    unfold ruleWith
    split
    · next rule hrule => exact (Option.filter_eq_some_iff.mp hrule).2
    · rfl
  show (some (v.ruleWith c)).filter (·.enabled) = _
  rw [Option.filter_some, if_pos henabled]

theorem conditions_withCondition (v : Variable) (c : Condition) :
    (v.withCondition c).conditions = v.conditions ++ [c] := by
  rw [conditions, activeRule?_withCondition, conditions]
  unfold ruleWith
  cases v.activeRule? <;> rfl

/-! ## What the other variables see -/

/-- A variable without its rule. -/
def bare (v : Variable) : Variable :=
  { v with rule? := none }

theorem lastPlace?_map_bare (questions : List Variable) (id : String) :
    lastPlace? (questions.map bare) id
      = (lastPlace? questions id).map fun e => (e.1.bare, e.2) := by
  have hfold : ∀ (xs : List (Variable × Nat)) (found : Option (Variable × Nat)),
      xs.foldl (fun found e => if e.1.bare.id = id then some (e.1.bare, e.2) else found)
          (found.map fun e => (e.1.bare, e.2))
        = (xs.foldl (fun found e => if e.1.id = id then some e else found) found).map
          fun e => (e.1.bare, e.2) := by
    intro xs
    induction xs with
    | nil => exact fun _ => rfl
    | cons x xs ih =>
      intro found
      rw [List.foldl_cons, List.foldl_cons, ← ih]
      congr 1
      show (if x.1.id = id then _ else _) = _
      split <;> rfl
  unfold lastPlace?
  rw [List.zipIdx_map, List.foldl_map]
  exact hfold questions.zipIdx none

variable {questions others : List Variable} {place : Nat}

section Bare

variable (hbare : questions.map bare = others.map bare)
include hbare

theorem idDefects_congr (v : Variable) : v.idDefects questions = v.idDefects others := by
  have hmap : ∀ others : List Variable, v.idDefects (others.map bare) = v.idDefects others := by
    intro others
    unfold idDefects
    rw [List.filter_map, List.filterMap_map]
    rfl
  rw [← hmap questions, hbare, hmap]

theorem ownDefects_congr (v : Variable) (unitLimit : Int) :
    v.ownDefects questions unitLimit = v.ownDefects others unitLimit := by
  rw [ownDefects, ownDefects, idDefects_congr hbare]

theorem ruleDefects_congr (v : Variable) (place : Nat) :
    v.ruleDefects questions place = v.ruleDefects others place := by
  have hmap : ∀ questions : List Variable,
      conditionDefect? (questions.map bare) place = conditionDefect? questions place := by
    intro questions
    funext c
    rw [conditionDefect?, conditionDefect?, lastPlace?_map_bare]
    cases lastPlace? questions c.dependsOn <;> rfl
  rw [ruleDefects, ruleDefects, ← hmap questions, hbare, hmap]

theorem ruleAdvice_congr (v : Variable) (place : Nat) :
    v.ruleAdvice questions place = v.ruleAdvice others place := by
  have hmap : ∀ questions : List Variable,
      v.conditionAdvice? (questions.map bare) place = v.conditionAdvice? questions place := by
    intro questions
    funext c
    rw [conditionAdvice?, conditionAdvice?, lastPlace?_map_bare]
    cases lastPlace? questions c.dependsOn <;> rfl
  rw [ruleAdvice, ruleAdvice, ← hmap questions, hbare, hmap]

end Bare

end Variable

open Variable

section Bare

variable {f g : Formula} (hbare : g.questions.map bare = f.questions.map bare)
include hbare

theorem Formula.defectsAt_congr (unitLimit : Int) (v : Variable) (place : Nat) :
    g.defectsAt unitLimit v place = f.defectsAt unitLimit v place := by
  have herase : (g.questions.eraseIdx place).map bare = (f.questions.eraseIdx place).map bare := by
    rw [← List.eraseIdx_map, hbare, List.eraseIdx_map]
  rw [defectsAt, defectsAt, ownDefects_congr herase, ruleDefects_congr hbare]

theorem Formula.expressionAdvice_congr (hexpression : g.expression = f.expression) :
    g.expressionAdvice = f.expressionAdvice := by
  have hsample : ∀ f : Formula,
      f.sampleContributions = { f with questions := f.questions.map bare }.sampleContributions := by
    intro f
    unfold sampleContributions
    rw [List.flatMap_map]
    rfl
  have hany : ∀ (f : Formula) (name : String),
      (f.questions.any fun v => v.isMultiSelect && v.id == name)
        = (f.questions.map bare).any fun v => v.isMultiSelect && v.id == name := by
    intro f name
    rw [List.any_map]
    rfl
  have hsamples : g.sampleContributions = f.sampleContributions := by
    rw [hsample g, hsample f, hbare]
    rfl
  unfold expressionAdvice
  simp only [hexpression, hsamples, hany, hbare]

end Bare

/-! ## What is found in the variable itself -/

namespace Variable

variable {questions : List Variable} {place : Nat} {v : Variable} {c : Condition}

theorem ruleDefects_withCondition (h : conditionDefect? questions place c = none) :
    (v.withCondition c).ruleDefects questions place = v.ruleDefects questions place := by
  rw [ruleDefects, activeRule?_withCondition, ruleDefects]
  unfold ruleWith
  cases v.activeRule? with
  | none =>
    -- the only condition is the new one, and no fallback suits every kind
    show [c].filterMap _ ++ [] = []
    rw [List.filterMap_cons_none h]
    rfl
  | some rule =>
    show (rule.conditions ++ [c]).filterMap _ ++ _ = rule.conditions.filterMap _ ++ _
    rw [List.filterMap_append, List.filterMap_cons_none h, List.filterMap_nil, List.append_nil]
    rfl

theorem ruleAdvice_withCondition (h : v.conditionAdvice? questions place c = none) :
    (v.withCondition c).ruleAdvice questions place = v.ruleAdvice questions place := by
  rw [ruleAdvice, activeRule?_withCondition, ruleAdvice]
  unfold ruleWith
  cases v.activeRule? with
  | none =>
    -- no fallback names no options
    show [c].filterMap (v.conditionAdvice? questions place) ++ _ = []
    rw [List.filterMap_cons_none h]
    simp [fallbackNames]
  | some rule =>
    show (rule.conditions ++ [c]).filterMap (v.conditionAdvice? questions place) ++ _
      = rule.conditions.filterMap _ ++ _
    rw [List.filterMap_append, List.filterMap_cons_none h, List.filterMap_nil, List.append_nil]
    rfl

end Variable

/-- What is collected place by place stays when the entry at one place gives the same as before. -/
theorem flatMap_zipIdx_congr {α : Type u} {β : Type w} {before after : List α} {x y : α}
    {collect : α × Nat → List β}
    (h : collect (y, before.length) = collect (x, before.length)) :
    (before ++ y :: after).zipIdx.flatMap collect
      = (before ++ x :: after).zipIdx.flatMap collect := by
  simp only [List.zipIdx_append, List.zipIdx_cons, List.flatMap_append, List.flatMap_cons,
    Nat.zero_add, h]

/-! ## What is offered -/

section Offered

variable {before after : List Variable} {v : Variable}
  (hids : ((before ++ v :: after).map (·.id)).Nodup)
include hids

/-- All earlier variables that are always shown are offered, and no others. -/
theorem mem_availableDependencies {d : Variable} :
    d ∈ availableDependencies v (before ++ v :: after) ↔ d ∈ before ∧ d.isConditional = false := by
  have hbefore : before.findIdx? (·.id == v.id) = none := by
    rw [List.findIdx?_eq_none_iff]
    intro w hw
    rw [List.map_append, List.map_cons, List.nodup_append] at hids
    rw [beq_eq_false_iff_ne]
    exact hids.2.2 w.id (List.mem_map.mpr ⟨w, hw, rfl⟩) v.id List.mem_cons_self
  have hplace : (before ++ v :: after).findIdx? (·.id == v.id) = some before.length := by
    rw [List.findIdx?_append, hbefore, List.findIdx?_cons, beq_self_eq_true]
    simp
  rw [availableDependencies, hplace]
  simp only [List.take_left, List.mem_filter, Bool.not_eq_true']

variable {d : Variable} (hd : d ∈ before) {c : Condition} (hc : c.dependsOn = d.id)
include hd hc

/-- Nothing is wrong with a condition on an earlier variable. -/
theorem conditionDefect?_of_mem :
    conditionDefect? (before ++ v :: after) before.length c = none := by
  rw [conditionDefect?_eq_none_iff hids, List.take_left, hc]
  exact List.mem_map.mpr ⟨d, hd, rfl⟩

/-- Nor is a comparison unusual that is offered for it. -/
theorem conditionAdvice?_of_mem (hoffered : c.comparison ∈ Comparison.offered d.kind) :
    v.conditionAdvice? (before ++ v :: after) before.length c = none := by
  have hmem : d ∈ before ++ v :: after := List.mem_append_left _ hd
  rw [conditionAdvice?, hc]
  rcases lastPlace?_cases (before ++ v :: after) d.id with ⟨w, p, hw, hid, hlast⟩ | ⟨hnone, -⟩
  · obtain rfl : w = d := List.inj_on_of_nodup_map hids (List.mem_of_getElem? hw) hmem hid
    have hcontains : (Comparison.offered w.kind).contains c.comparison = true :=
      List.contains_iff_mem.mpr hoffered
    simp only [hlast, hcontains]
    simp
  · exact absurd rfl (hnone d hmem)

end Offered

/-! ## Taking up what is offered -/

theorem Variable.danglingConditions_withCondition {v : Variable} {c : Condition}
    {earlier : List String} (h : c.dependsOn ∈ earlier) :
    (v.withCondition c).danglingConditions earlier = v.danglingConditions earlier := by
  unfold danglingConditions
  rw [conditions_withCondition, List.filter_append, List.filter_cons_of_neg (by simpa using h),
    List.filter_nil, List.append_nil]
  rfl

/-- No condition of a variable that names an earlier one dangles. -/
theorem not_mem_danglingConditions {questions : List Variable}
    (hids : (questions.map (·.id)).Nodup) {place : Nat} {v : Variable}
    (hv : questions[place]? = some v) {id : String}
    (hid : id ∈ (questions.take place).map (·.id)) :
    ⟨v.id, id⟩ ∉ danglingConditions questions := by
  intro hmem
  obtain ⟨⟨w, p⟩, hw, hdangling⟩ := List.mem_flatMap.mp hmem
  obtain ⟨c, hc, hissue⟩ := List.mem_map.mp hdangling
  obtain ⟨hwid, rfl⟩ := ResolutionIssue.mk.inj hissue
  -- the variable with the issue is this one, and so is its place
  have hplace : p = place := by
    have hget := List.mk_mem_zipIdx_iff_getElem?.mp hw
    have hbound : p < (questions.map (·.id)).length := by
      rw [List.length_map]
      exact (List.getElem?_eq_some_iff.mp hget).1
    apply (List.getElem?_inj hbound hids).mp
    rw [List.getElem?_map, List.getElem?_map, hget, hv, Option.map_some, Option.map_some, hwid]
  have hnot := (List.mem_filter.mp hc).2
  rw [decide_eq_true_eq, hplace] at hnot
  exact hnot hid

namespace Formula

variable {f g : Formula} {before after : List Variable} {v d : Variable} {c : Condition}

/-- A formula with one more condition on an earlier variable has the same findings. -/
theorem validate_withCondition (hf : f.questions = before ++ v :: after)
    (hids : (f.questions.map (·.id)).Nodup) (hd : d ∈ before) (hc : c.dependsOn = d.id)
    (hoffered : c.comparison ∈ Comparison.offered d.kind)
    (hg : g = { f with questions := before ++ v.withCondition c :: after }) (unitLimit : Int)
    (report : Report) :
    g.validate unitLimit = .ok report ↔ f.validate unitLimit = .ok report := by
  have hbare : g.questions.map bare = f.questions.map bare := by
    rw [hg, hf, List.map_append, List.map_append]
    rfl
  have hmeasured : (∀ w ∈ g.questions, w.IsMeasured) ↔ ∀ w ∈ f.questions, w.IsMeasured := by
    rw [hg, hf]
    simp only [List.forall_mem_append, List.forall_mem_cons]
    rfl
  rw [hf] at hids
  have hdefect := conditionDefect?_of_mem hids hd hc
  have hadvice := conditionAdvice?_of_mem hids hd hc hoffered
  have hquestions : g.questions = before ++ v.withCondition c :: after := by rw [hg]
  have herrors : g.definitionErrors unitLimit = f.definitionErrors unitLimit := by
    unfold definitionErrors
    simp only [defectsAt_congr hbare]
    rw [hquestions, hf, flatMap_zipIdx_congr (x := v), hg]
    · rfl
    · rw [defectsAt, hf, ruleDefects_withCondition hdefect, ← hf]
      rfl
  have hadvices : g.advice = f.advice := by
    unfold advice
    simp only [expressionAdvice_congr hbare (by rw [hg]), ruleAdvice_congr hbare]
    rw [hquestions, hf, flatMap_zipIdx_congr (x := v)]
    exact ruleAdvice_withCondition hadvice
  rw [validate_eq_ok_iff, validate_eq_ok_iff, hmeasured, herrors, hadvices]

/-- Nor does it have other issues when answers are resolved. -/
theorem issues_withCondition (hd : d ∈ before) (hc : c.dependsOn = d.id) (answers : Answers) :
    (resolve (before ++ v.withCondition c :: after) answers).issues
      = (resolve (before ++ v :: after) answers).issues := by
  -- the ids before each place are what they were
  have hids : ∀ place, ((before ++ v.withCondition c :: after).take place).map (·.id)
      = ((before ++ v :: after).take place).map (·.id) := by
    intro place
    rw [List.map_take, List.map_take, List.map_append, List.map_append]
    rfl
  have hearlier : c.dependsOn ∈ ((before ++ v :: after).take before.length).map (·.id) := by
    rw [List.take_left, hc]
    exact List.mem_map.mpr ⟨d, hd, rfl⟩
  rw [issues_resolve, issues_resolve]
  unfold danglingConditions
  simp only [hids]
  apply flatMap_zipIdx_congr
  exact danglingConditions_withCondition hearlier

/-- **What is offered may be taken up.** Offered are the earlier variables that are always shown.
With one more condition on one of them, by any comparison that is offered for its kind, the check of
a formula gives the report that it gave before, and under all answers the resolution has the issues
that it had before. None of these is about the new condition, which is in force beside those that
were. -/
theorem offered_conditions_fit (hf : f.questions = before ++ v :: after)
    (hids : (f.questions.map (·.id)).Nodup) :
    (∀ d, d ∈ availableDependencies v f.questions ↔ d ∈ before ∧ d.isConditional = false)
      ∧ ∀ d ∈ availableDependencies v f.questions, ∀ comparison ∈ Comparison.offered d.kind,
        ∀ expected,
          let w := v.withCondition ⟨d.id, comparison, expected⟩
          let g := { f with questions := before ++ w :: after }
          w.conditions = v.conditions ++ [⟨d.id, comparison, expected⟩]
            ∧ (∀ unitLimit report,
              g.validate unitLimit = .ok report ↔ f.validate unitLimit = .ok report)
            ∧ ∀ answers, (resolve g.questions answers).issues = (resolve f.questions answers).issues
              ∧ ⟨v.id, d.id⟩ ∉ (resolve g.questions answers).issues := by
  have hsplit := hids
  rw [hf] at hsplit
  have hoffers : ∀ d,
      d ∈ availableDependencies v f.questions ↔ d ∈ before ∧ d.isConditional = false := by
    intro d
    rw [hf]
    exact mem_availableDependencies hsplit
  refine ⟨hoffers, fun d hd comparison hcomparison expected => ?_⟩
  have hbefore := ((hoffers d).mp hd).1
  refine ⟨conditions_withCondition _ _, fun unitLimit report => ?_, fun answers => ?_⟩
  · exact validate_withCondition hf hids hbefore rfl hcomparison rfl unitLimit report
  · have hsame : (resolve (before ++ v.withCondition ⟨d.id, comparison, expected⟩ :: after)
        answers).issues = (resolve f.questions answers).issues := by
      rw [hf]
      exact issues_withCondition hbefore rfl answers
    have hv : (before ++ v :: after)[before.length]? = some v := by simp
    refine ⟨hsame, ?_⟩
    rw [hsame, issues_resolve, hf]
    apply not_mem_danglingConditions hsplit hv
    rw [List.take_left]
    exact List.mem_map.mpr ⟨d, hbefore, rfl⟩

/-- The extras of a fence may be asked for by its length once more, up to a hundred metres. -/
theorem offered_conditions_fit_fence :
    let short : Condition := ⟨"length", .lessThan, .int 100⟩
    let fence := { Sample.fence with
      questions := [Sample.length, Sample.extras.withCondition short] }
    (Sample.fence.questions.map (·.id)).Nodup
      ∧ Sample.length ∈ availableDependencies Sample.extras Sample.fence.questions
      ∧ (Sample.extras.withCondition short).conditions.length = 2
      ∧ (∀ report, fence.validate defaultUnitLimit = .ok report
        ↔ Sample.fence.validate defaultUnitLimit = .ok report)
      ∧ ∀ answers, ⟨"extra", "length"⟩ ∉ (resolve fence.questions answers).issues := by
  intro short fence
  have hf : Sample.fence.questions = [Sample.length] ++ Sample.extras :: [] := rfl
  have hids : (Sample.fence.questions.map (·.id)).Nodup := by decide
  obtain ⟨hoffers, hfit⟩ := offered_conditions_fit hf hids
  have hlength := (hoffers Sample.length).mpr ⟨List.mem_singleton_self _, rfl⟩
  obtain ⟨hconditions, hreport, hissues⟩ :=
    hfit Sample.length hlength .lessThan (by decide) (.int 100)
  refine ⟨hids, hlength, ?_, hreport defaultUnitLimit, fun answers => (hissues answers).2⟩
  exact congrArg List.length hconditions

end Formula

end Tariff

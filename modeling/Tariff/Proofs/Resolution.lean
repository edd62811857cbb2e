import Tariff.Proofs.OrderedMap
import Tariff.Resolution

/-!
# Runs of the resolution

`resolve` runs over the variables of a formula, and one step reads nothing but the answer to its own
variable and what was resolved before. This module says what a run adds to where it starts from:

* `find?_resolved_run`, `find?_visibility_run` — what is known of other ids stays as it was;
* `settled_run` — if conditions name earlier variables only, each variable could as well have been
  decided on at the end;
* `find?_run_of_settled` — and there is only one way in which all of them can be decided on;
* `run_congr` — answers that agree on every variable that is shown give the same run.
-/

namespace Tariff.Resolution

/-- The value of a variable, given what is resolved. -/
def effectiveValue (answers : Answers) (resolved : Resolved) (v : Variable) : Value :=
  if v.isVisible resolved then rawAnswer v answers else fallback v

/-- The resolution after some more variables. -/
def run (answers : Answers) (r : Resolution) (questions : List Variable) : Resolution :=
  questions.foldl (step answers) r

section Step

variable (answers : Answers) (r : Resolution) (v : Variable)

@[simp] theorem run_nil : run answers r [] = r := rfl

@[simp] theorem run_cons (questions : List Variable) :
    run answers r (v :: questions) = run answers (step answers r v) questions := rfl

@[simp] theorem step_visibility :
    (step answers r v).visibility = r.visibility.insert v.id (v.isVisible r.resolved) := rfl

@[simp] theorem step_resolved :
    (step answers r v).resolved
      = r.resolved.insert v.id (v, effectiveValue answers r.resolved v) := rfl

@[simp] theorem step_issues :
    (step answers r v).issues = r.issues ++ v.resolutionIssues r.resolved := rfl

theorem mem_keys_resolved_step {id : String} :
    id ∈ (step answers r v).resolved.keys ↔ id = v.id ∨ id ∈ r.resolved.keys :=
  OrderedMap.mem_keys_insert

/-- A step reads the answer to its variable only if the variable is shown. -/
theorem step_congr {first second : Answers}
    (h : v.isVisible r.resolved = true → first.find? v.id = second.find? v.id) :
    step first r v = step second r v := by
  have hvalue : (if v.isVisible r.resolved then rawAnswer v first else fallback v)
      = if v.isVisible r.resolved then rawAnswer v second else fallback v := by
    split
    · next hvisible => rw [rawAnswer, rawAnswer, h hvisible]
    · rfl
  unfold step
  simp only [hvalue]

end Step

variable {answers : Answers} {r : Resolution} {questions : List Variable} {id : String}

theorem find?_resolved_run (h : id ∉ questions.map (·.id)) :
    (run answers r questions).resolved.find? id = r.resolved.find? id := by
  induction questions generalizing r with
  | nil => rfl
  | cons v questions ih =>
    rw [List.map_cons, List.mem_cons, not_or] at h
    rw [run_cons, ih h.2, step_resolved, OrderedMap.find?_insert_of_ne h.1]

theorem find?_visibility_run (h : id ∉ questions.map (·.id)) :
    (run answers r questions).visibility.find? id = r.visibility.find? id := by
  induction questions generalizing r with
  | nil => rfl
  | cons v questions ih =>
    rw [List.map_cons, List.mem_cons, not_or] at h
    rw [run_cons, ih h.2, step_visibility, OrderedMap.find?_insert_of_ne h.1]

/-- The decision on a variable stays when no later variable has its id. -/
theorem find?_visibility_run_cons {v : Variable} (h : v.id ∉ questions.map (·.id)) :
    (run answers r (v :: questions)).visibility.find? v.id = some (v.isVisible r.resolved) := by
  rw [run_cons, find?_visibility_run h, step_visibility, OrderedMap.find?_insert_self]

/-- So does the value that belongs to the decision. -/
theorem find?_resolved_run_cons {v : Variable} (h : v.id ∉ questions.map (·.id)) :
    (run answers r (v :: questions)).resolved.find? v.id
      = some (v, effectiveValue answers r.resolved v) := by
  rw [run_cons, find?_resolved_run h, step_resolved, OrderedMap.find?_insert_self]

/-! ## Decisions that hold at the end -/

/-- Whether a variable is shown depends on what its conditions name. -/
theorem isVisible_congr {v : Variable} {resolved other : Resolved}
    (h : ∀ c ∈ v.conditions, resolved.find? c.dependsOn = other.find? c.dependsOn) :
    v.isVisible resolved = v.isVisible other := by
  unfold Variable.isVisible
  unfold Variable.conditions at h
  cases hrule : v.activeRule? with
  | none => rfl
  | some rule =>
    rw [hrule] at h
    have hconditions :
        (rule.conditions.map fun c => (Variable.conditionHolds? resolved c).getD false)
        = rule.conditions.map fun c => (Variable.conditionHolds? other c).getD false := by
      refine List.map_congr_left fun c hc => ?_
      rw [Variable.conditionHolds?, Variable.conditionHolds?, h c hc]
    exact congrArg (Variable.joinConditions rule.connective) hconditions

/-- Every condition names one of some ids, or a variable that comes before. -/
def NamesEarlier (known : List String) : List Variable → Prop
  | [] => True
  | v :: rest => (∀ c ∈ v.conditions, c.dependsOn ∈ known) ∧ NamesEarlier (known ++ [v.id]) rest

theorem namesEarlier_of_take {known : List String}
    (h : ∀ v place, questions[place]? = some v →
      ∀ c ∈ v.conditions, c.dependsOn ∈ known ++ (questions.take place).map (·.id)) :
    NamesEarlier known questions := by
  induction questions generalizing known with
  | nil => trivial
  | cons v rest ih =>
    refine ⟨fun c hc => by simpa using h v 0 rfl c hc, ih fun w place hw c hc => ?_⟩
    have hplace := h w (place + 1) hw c hc
    rw [List.take_succ_cons, List.map_cons] at hplace
    rw [List.append_assoc]
    exact hplace

/-- The decision on a variable is the one that would be made now, and it is known. -/
structure Settled (answers : Answers) (r : Resolution) (v : Variable) : Prop where
  /-- The value that belongs to the decision. -/
  resolved : r.resolved.find? v.id = some (v, effectiveValue answers r.resolved v)
  /-- The decision. -/
  visibility : r.visibility.find? v.id = some (v.isVisible r.resolved)

/-- **A run settles its variables**: what comes later does not change what they depend on. -/
theorem settled_run {known : List String} (hnames : NamesEarlier known questions)
    (hids : (questions.map (·.id)).Nodup) (hknown : ∀ id ∈ known, id ∉ questions.map (·.id)) :
    ∀ v ∈ questions, Settled answers (run answers r questions) v := by
  induction questions generalizing r known with
  | nil => simp
  | cons v rest ih =>
    obtain ⟨hconditions, hrest⟩ := hnames
    obtain ⟨hfresh, hids⟩ := List.nodup_cons.mp hids
    -- the variables that are named keep what they had when `v` was decided on
    have hstays : v.isVisible (run answers r (v :: rest)).resolved = v.isVisible r.resolved :=
      isVisible_congr fun c hc => find?_resolved_run (hknown _ (hconditions c hc))
    rintro w hw
    rcases List.mem_cons.mp hw with rfl | hw
    · refine ⟨?_, ?_⟩
      · rw [find?_resolved_run_cons hfresh, effectiveValue, effectiveValue, hstays]
      · rw [hstays, find?_visibility_run_cons hfresh]
    · refine ih hrest hids ?_ w hw
      intro id hid
      rcases List.mem_append.mp hid with hid | hid
      · exact fun hmem => hknown id hid (List.mem_cons_of_mem _ hmem)
      · obtain rfl := List.mem_singleton.mp hid
        exact hfresh

/-- **There is one way to settle variables.** A run that starts with what is known of some ids
comes to the same values as any resolution in which its variables are settled. -/
theorem find?_run_of_settled {settled : Resolution} {known : List String}
    (hnames : NamesEarlier known questions) (hsettled : ∀ v ∈ questions, Settled answers settled v)
    (hknown : ∀ id ∈ known, r.resolved.find? id = settled.resolved.find? id) :
    ∀ id ∈ known ++ questions.map (·.id),
      (run answers r questions).resolved.find? id = settled.resolved.find? id := by
  induction questions generalizing r known with
  | nil => simpa using hknown
  | cons v rest ih =>
    obtain ⟨hconditions, hrest⟩ := hnames
    have hsplit : known ++ (v :: rest).map (·.id) = known ++ [v.id] ++ rest.map (·.id) := by simp
    rw [hsplit, run_cons]
    refine ih hrest (fun w hw => hsettled w (List.mem_cons_of_mem _ hw)) fun id hid => ?_
    rw [step_resolved]
    by_cases hown : id = v.id
    · have hvisible : v.isVisible r.resolved = v.isVisible settled.resolved :=
        isVisible_congr fun c hc => hknown _ (hconditions c hc)
      rw [hown, OrderedMap.find?_insert_self, (hsettled v List.mem_cons_self).resolved,
        effectiveValue, effectiveValue, hvisible]
    · have hmem : id ∈ known := by simpa [hown] using hid
      rw [OrderedMap.find?_insert_of_ne hown, hknown id hmem]

/-! ## Two maps of answers -/

/-- **Only the answers to shown variables are read.** Two runs from one start, under answers that
agree on every variable that the first run shows, are the same. -/
theorem run_congr {first second : Answers} (hids : (questions.map (·.id)).Nodup)
    (hagree : ∀ v ∈ questions, (run first r questions).visibility.find? v.id = some true →
      first.find? v.id = second.find? v.id) :
    run first r questions = run second r questions := by
  induction questions generalizing r with
  | nil => rfl
  | cons v questions ih =>
    obtain ⟨hfresh, hrest⟩ := List.nodup_cons.mp hids
    -- up to here the runs are the same, so they decide alike on the next variable
    have hstep : step first r v = step second r v := by
      refine step_congr r v fun hvisible => hagree v List.mem_cons_self ?_
      rw [find?_visibility_run_cons hfresh, hvisible]
    rw [run_cons, run_cons, ← hstep]
    exact ih hrest fun w hw => hagree w (List.mem_cons_of_mem _ hw)

end Tariff.Resolution

namespace Tariff

theorem resolve_eq_run (questions : List Variable) (answers : Answers) :
    resolve questions answers
      = { Resolution.run answers .start questions with
          trace := (Resolution.run answers .start questions).trace
            ++ [(Resolution.run answers .start questions).summary] } := rfl

theorem find?_effective (r : Resolution) (id : String) :
    r.effective.find? id = (r.resolved.find? id).map (·.2) :=
  OrderedMap.find?_map_values _

end Tariff

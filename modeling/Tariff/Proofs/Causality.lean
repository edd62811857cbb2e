import Tariff.Proofs.Resolution
import Tariff.Proofs.Sample

/-!
# What comes later changes nothing

Variables are resolved in their order, and a step only adds to what is resolved. So a variable is
decided on by those before it alone: followed by others, and under answers that differ for these
others, it comes out as it does on its own (`find?_visibility_append`, `find?_effective_append`).
Its value is its answer or its fallback (`Resolution.exists_decision`), and a condition that names a
hidden variable is asked of the fallback (`conditionHolds?_of_hidden`).
-/

namespace Tariff

namespace Resolution

variable {answers first second : Answers} {r : Resolution} {questions before after : List Variable}
  {v : Variable}

theorem run_append :
    run answers r (before ++ after) = run answers (run answers r before) after :=
  List.foldl_append

/-- A run reads the answers to its own variables only. -/
theorem run_congr_answers (h : ∀ v ∈ questions, first.find? v.id = second.find? v.id) :
    run first r questions = run second r questions := by
  induction questions generalizing r with
  | nil => rfl
  | cons v questions ih =>
    obtain ⟨hown, hrest⟩ := List.forall_mem_cons.mp h
    rw [run_cons, run_cons, step_congr r v fun _ => hown]
    exact ih hrest

/-- Issues are only ever added. -/
theorem issues_prefix_run : r.issues <+: (run answers r questions).issues := by
  induction questions generalizing r with
  | nil => exact List.prefix_rfl
  | cons v questions ih =>
    have hstep : r.issues <+: (step answers r v).issues := by
      rw [step_issues]
      exact List.prefix_append _ _
    exact hstep.trans ih

/-- **Each variable is decided on once**: by what was resolved then, it is shown with its answer or
hidden with its fallback. -/
theorem exists_decision (answers : Answers) (r : Resolution) (hids : (questions.map (·.id)).Nodup)
    (hv : v ∈ questions) : ∃ earlier,
      (run answers r questions).visibility.find? v.id = some (v.isVisible earlier)
        ∧ (run answers r questions).resolved.find? v.id
          = some (v, effectiveValue answers earlier v) := by
  obtain ⟨before, after, rfl⟩ := List.append_of_mem hv
  have hfresh : v.id ∉ after.map (·.id) := by
    rw [List.map_append, List.map_cons] at hids
    exact (List.nodup_cons.mp (List.nodup_append.mp hids).2.1).1
  rw [run_append]
  exact ⟨_, find?_visibility_run_cons hfresh, find?_resolved_run_cons hfresh⟩

end Resolution

open Resolution

/-! ## Hidden variables -/

section Hidden

variable {questions : List Variable} {answers : Answers} {v : Variable}
  (hids : (questions.map (·.id)).Nodup) (hv : v ∈ questions)
  (hhidden : (resolve questions answers).visibility.find? v.id = some false)
include hids hv hhidden

/-- A variable is hidden by what was resolved before it. -/
theorem exists_not_isVisible : ∃ earlier, v.isVisible earlier = false
    ∧ (resolve questions answers).resolved.find? v.id = some (v, fallback v) := by
  obtain ⟨earlier, hshown, hvalue⟩ := exists_decision answers .start hids hv
  have hfalse : v.isVisible earlier = false := Option.some.inj (hshown.symm.trans hhidden)
  rw [effectiveValue, hfalse] at hvalue
  exact ⟨earlier, hfalse, hvalue⟩

theorem find?_resolved_of_hidden :
    (resolve questions answers).resolved.find? v.id = some (v, fallback v) := by
  obtain ⟨-, -, hvalue⟩ := exists_not_isVisible hids hv hhidden
  exact hvalue

/-- **A hidden variable counts as its fallback.** -/
theorem find?_effective_of_hidden :
    (resolve questions answers).effective.find? v.id = some (fallback v) := by
  rw [find?_effective, find?_resolved_of_hidden hids hv hhidden]
  rfl

/-- **A condition on a hidden variable is one on its fallback.** -/
theorem conditionHolds?_of_hidden {c : Condition} (hc : c.dependsOn = v.id) :
    Variable.conditionHolds? (resolve questions answers).resolved c
      = some (c.comparison.holds v (fallback v) c.expected) := by
  rw [Variable.conditionHolds?, hc, find?_resolved_of_hidden hids hv hhidden]
  rfl

end Hidden

/-! ## Variables that come later -/

section Later

variable {pre post : List Variable} {first second : Answers} {id : String}
  (hagree : ∀ v ∈ pre, first.find? v.id = second.find? v.id)
include hagree

/-- A run over more variables goes on from what the earlier ones come to. -/
theorem run_append_congr :
    run first .start (pre ++ post) = run first (run second .start pre) post := by
  rw [run_append, run_congr_answers hagree]

theorem find?_visibility_append (hid : id ∉ post.map (·.id)) :
    (resolve (pre ++ post) first).visibility.find? id
      = (resolve pre second).visibility.find? id := by
  show (run first .start (pre ++ post)).visibility.find? id = _
  rw [run_append_congr hagree, find?_visibility_run hid]
  rfl

theorem find?_effective_append (hid : id ∉ post.map (·.id)) :
    (resolve (pre ++ post) first).effective.find? id
      = (resolve pre second).effective.find? id := by
  have hresolved : (run first .start (pre ++ post)).resolved.find? id
      = (resolve pre second).resolved.find? id := by
    rw [run_append_congr hagree, find?_resolved_run hid]
    rfl
  rw [find?_effective, find?_effective]
  exact congrArg _ hresolved

theorem issues_prefix_append :
    (resolve pre second).issues <+: (resolve (pre ++ post) first).issues := by
  show _ <+: (run first .start (pre ++ post)).issues
  rw [run_append_congr hagree]
  exact issues_prefix_run (r := run second .start pre)

/-- The next variable is decided on by what the earlier ones come to. -/
theorem find?_visibility_next {v : Variable} {rest : List Variable}
    (hfresh : v.id ∉ rest.map (·.id)) :
    (resolve (pre ++ v :: rest) first).visibility.find? v.id
      = some (v.isVisible (resolve pre second).resolved) := by
  show (run first .start (pre ++ v :: rest)).visibility.find? v.id = _
  rw [run_append_congr hagree, find?_visibility_run_cons hfresh]
  rfl

end Later

/-- **Resolution is causal.** Variables that are followed by others have the same decisions and
values as on their own, whatever is answered to the others, and the issues of all of them start with
their own. The next variable is decided on by what they come to, in which every hidden variable
stands with its fallback. -/
theorem resolve_causal {pre post : List Variable} {first second : Answers}
    (hpre : (pre.map (·.id)).Nodup) (hpost : (post.map (·.id)).Nodup)
    (hapart : ∀ v ∈ pre, v.id ∉ post.map (·.id))
    (hagree : ∀ v ∈ pre, first.find? v.id = second.find? v.id) :
    (∀ v ∈ pre, ∃ shown value,
      (resolve (pre ++ post) first).visibility.find? v.id = some shown
        ∧ (resolve pre second).visibility.find? v.id = some shown
        ∧ (resolve (pre ++ post) first).effective.find? v.id = some value
        ∧ (resolve pre second).effective.find? v.id = some value
        ∧ value = if shown then rawAnswer v second else fallback v)
      ∧ (resolve pre second).issues <+: (resolve (pre ++ post) first).issues
      ∧ ∀ v rest, post = v :: rest →
        (resolve (pre ++ post) first).visibility.find? v.id
            = some (v.isVisible (resolve pre second).resolved)
          ∧ ∀ d ∈ pre, (resolve pre second).visibility.find? d.id = some false →
            ∀ c : Condition, c.dependsOn = d.id →
              Variable.conditionHolds? (resolve pre second).resolved c
                = some (c.comparison.holds d (fallback d) c.expected) := by
  refine ⟨fun v hv => ?_, issues_prefix_append hagree, ?_⟩
  · obtain ⟨earlier, hshown, hvalue⟩ := exists_decision second .start hpre hv
    have heffective : (resolve pre second).effective.find? v.id
        = some (effectiveValue second earlier v) := by
      rw [find?_effective]
      exact congrArg (Option.map (·.2)) hvalue
    refine ⟨v.isVisible earlier, _, ?_, hshown, ?_, heffective, rfl⟩
    · rw [find?_visibility_append hagree (hapart v hv)]
      exact hshown
    · rw [find?_effective_append hagree (hapart v hv), heffective]
  · rintro v rest rfl
    exact ⟨find?_visibility_next hagree (List.nodup_cons.mp hpost).1,
      fun d hd hhidden c hc => conditionHolds?_of_hidden hpre hd hhidden hc⟩

/-- Without coats nobody asks for the area, and then nobody asks for the doors of a house that has
one, although all of it was answered. -/
theorem resolve_causal_coating :
    let doors := Sample.onlyIf "sqft" (Sample.count "doors")
    let answers : Answers := [("coats", .int 0), ("sqft", .int 100)]
    let all := resolve (Sample.coating.questions ++ [doors]) (answers.insert "doors" (.int 3))
    all.visibility.find? "doors" = some false
      ∧ all.effective.find? "sqft" = some (.int 0)
      ∧ (resolve Sample.coating.questions answers).issues <+: all.issues := by
  intro doors answers all
  have hagree : ∀ v ∈ Sample.coating.questions,
      (answers.insert "doors" (.int 3)).find? v.id = answers.find? v.id := by
    intro v hv
    rw [OrderedMap.find?_insert_of_ne]
    revert v
    decide
  have hpre : (Sample.coating.questions.map (·.id)).Nodup := by decide
  have hpost : ([doors].map (·.id)).Nodup := by decide
  have hapart : ∀ v ∈ Sample.coating.questions, v.id ∉ [doors].map (·.id) := by decide
  obtain ⟨hown, hissues, hnext⟩ := resolve_causal hpre hpost hapart hagree
  obtain ⟨hdoors, -⟩ := hnext doors [] rfl
  refine ⟨hdoors.trans (by decide), ?_, hissues⟩
  obtain ⟨shown, value, -, hshown, hvalue, -, hdecided⟩ := hown _ (.tail _ (.head _))
  obtain rfl : shown = false := Option.some.inj (hshown.symm.trans (by decide))
  rw [hdecided] at hvalue
  exact hvalue

end Tariff

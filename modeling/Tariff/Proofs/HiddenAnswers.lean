import Tariff.Pricing
import Tariff.Proofs.Resolution
import Tariff.Proofs.Sample

/-!
# Hidden answers do not matter

Two customers who give the same answers wherever the first of them is asked get the same price, and
with it the same effective values, notices and trace, or the same refusal (`calculate_eq_of_agree`).
What is said about a hidden variable, or about one that the formula does not have, is never read.
-/

namespace Tariff

/-- Two maps of answers agree on every variable that is shown under the first one: it is answered
in both or in neither, and with the same value. -/
def AgreeWhereShown (questions : List Variable) (first second : Answers) : Prop :=
  ∀ v ∈ questions, (resolve questions first).visibility.find? v.id = some true →
    first.find? v.id = second.find? v.id

theorem resolve_eq_of_agree {questions : List Variable} {first second : Answers}
    (hids : (questions.map (·.id)).Nodup) (hagree : AgreeWhereShown questions first second) :
    resolve questions first = resolve questions second := by
  have hrun : Resolution.run first .start questions = Resolution.run second .start questions :=
    Resolution.run_congr hids hagree
  rw [resolve_eq_run, resolve_eq_run, hrun]

namespace Formula

variable {f : Formula} {first second : Answers}

/-- The way to a price starts from what is resolved, and does not go back to the answers. -/
theorem calculate_eq_of_resolve (h : resolve f.questions first = resolve f.questions second)
    (depth : Nat) : f.calculate first depth = f.calculate second depth := by
  unfold calculate
  rw [h]

/-- Answers that agree where the first ones are shown have one outcome: the same price and
everything that is told with it, or the same fault. -/
theorem calculate_eq_of_agree (hids : (f.questions.map (·.id)).Nodup)
    (hagree : AgreeWhereShown f.questions first second) (depth : Nat) :
    f.calculate first depth = f.calculate second depth :=
  calculate_eq_of_resolve (resolve_eq_of_agree hids hagree) depth

/-- Without a length nobody asks for extras, so it does not matter what is answered to them, nor
what is said about a colour. -/
theorem calculate_eq_of_agree_fence :
    Sample.fence.calculate [("length", .int 0)] defaultDepth
      = Sample.fence.calculate [("length", .int 0), ("extra", .text "gate"), ("colour", .int 7)]
          defaultDepth := by
  have hids : (Sample.fence.questions.map (·.id)).Nodup := by decide
  refine calculate_eq_of_agree hids ?_ defaultDepth
  intro v hv hshown
  rcases List.mem_cons.mp hv with rfl | hv
  · rfl
  · obtain rfl := List.mem_singleton.mp hv
    exact absurd hshown (by decide)

/-- An answer to a hidden variable, or under an id that no variable has, changes nothing. -/
theorem calculate_insert_of_hidden {answers : Answers} {id : String} (value : Value)
    (hids : (f.questions.map (·.id)).Nodup)
    (hhidden : (resolve f.questions answers).visibility.find? id ≠ some true) (depth : Nat) :
    f.calculate (answers.insert id value) depth = f.calculate answers depth := by
  have hagree : AgreeWhereShown f.questions answers (answers.insert id value) := by
    intro v _ hshown
    have hne : v.id ≠ id := by
      rintro rfl
      exact hhidden hshown
    rw [OrderedMap.find?_insert_of_ne hne]
  exact (calculate_eq_of_resolve (resolve_eq_of_agree hids hagree) depth).symm

end Formula

end Tariff

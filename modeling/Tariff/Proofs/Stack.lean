import Tariff.Stack
import Tariff.Proofs.Outcome

/-!
# Computations on a stack of limited height

`Limited enough x y` says what a limit does to a computation: `y` is `x` if the stack is high
enough, and comes to a halt for want of a level otherwise. Whether it is high enough is part of the
relation, so that nothing else has to be said about `y`: a computation in stages needs a stack that
is high enough for every stage that is come to (`Limited.bind`).
-/

namespace Tariff

/-- A computation `x` on a stack of limited height has the outcome `y`; the height suffices exactly
if `enough`. -/
structure Limited {ε α : Type} (enough : Prop) (x : Except ε α) (y : Except (Halt ε) α) : Prop where
  /-- On a stack that is high enough nothing is changed. -/
  within : enough → y = x.mapError .fault
  /-- On any other there is no result. -/
  beyond : ¬enough → y = .error .stack

namespace Limited

variable {ε δ α β : Type} {p q : Prop} {x : Except ε α} {y : Except (Halt ε) α}

theorem congr (h : Limited p x y) (hpq : p ↔ q) : Limited q x y := by
  rwa [← hpq]

/-- A computation that the stack is high enough for. -/
theorem of (hp : p) : Limited p x (x.mapError .fault) :=
  ⟨fun _ => rfl, fun h => absurd hp h⟩

/-- A computation that the stack is too low for. -/
theorem of_not (hp : ¬p) : Limited p x (.error .stack) :=
  ⟨fun h => absurd h hp, fun _ => rfl⟩

theorem eq_ok_iff (h : Limited p x y) {a : α} : y = .ok a ↔ p ∧ x = .ok a := by
  by_cases hp : p
  · rw [h.within hp, mapError_eq_ok_iff, and_iff_right hp]
  · rw [h.beyond hp]
    simp [hp]

theorem eq_fault_iff (h : Limited p x y) {e : ε} : y = .error (.fault e) ↔ p ∧ x = .error e := by
  by_cases hp : p
  · rw [h.within hp, mapError_eq_error_iff, and_iff_right hp]
    simp
  · rw [h.beyond hp]
    simp [hp]

theorem eq_stack_iff (h : Limited p x y) : y = .error .stack ↔ ¬p := by
  by_cases hp : p
  · rw [h.within hp, mapError_eq_error_iff]
    simp [hp]
  · rw [h.beyond hp]
    simp [hp]

/-- Two stages: the second is come to only with a result of the first. -/
theorem bind (h : Limited p x y) {f : α → Except ε β} {g : α → Except (Halt ε) β} {q : α → Prop}
    (hf : p → ∀ a, x = .ok a → Limited (q a) (f a) (g a)) :
    Limited (p ∧ ∀ a, x = .ok a → q a) (x >>= f) (y >>= g) := by
  constructor
  · rintro ⟨hp, hq⟩
    rw [h.within hp]
    cases x with
    | error e => rfl
    | ok a => exact (hf hp a rfl).within (hq a rfl)
  · intro hno
    by_cases hp : p
    · rw [h.within hp]
      cases x with
      | error e => exact absurd ⟨hp, nofun⟩ hno
      | ok a =>
        refine (hf hp a rfl).beyond fun hq => hno ⟨hp, fun _ ha => ?_⟩
        cases ha
        exact hq
    · rw [h.beyond hp]
      rfl

/-- The faults of a part are reported as the faults of the whole. -/
theorem mapError (h : Limited p x y) (f : ε → δ) :
    Limited p (x.mapError f) (y.mapError (Halt.map f)) := by
  constructor
  · intro hp
    rw [h.within hp]
    cases x <;> rfl
  · intro hp
    rw [h.beyond hp]
    rfl

end Limited

end Tariff

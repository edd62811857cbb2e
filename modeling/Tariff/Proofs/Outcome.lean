import Mathlib.Data.List.Forall2

/-!
# Outcomes

How a computation that may fail has succeeded, which is that every stage of it has, and how it has
failed.
-/

namespace Tariff

variable {ε α β : Type _}

/-- Whether a computation has failed in a certain way. -/
instance decidableEqError [DecidableEq ε] (x : Except ε α) (e : ε) : Decidable (x = .error e) :=
  match x with
  | .ok _ => isFalse nofun
  | .error e' => decidable_of_iff (e' = e) ⟨congrArg Except.error, Except.error.inj⟩

theorem map_eq_ok_iff {x : Except ε α} {f : α → β} {b : β} :
    x.map f = .ok b ↔ ∃ a, x = .ok a ∧ f a = b := by
  cases x with
  | error e => simp [Except.map]
  | ok a => simp [Except.map]

theorem mapError_eq_ok_iff {ε' : Type _} {x : Except ε α} {f : ε → ε'} {a : α} :
    x.mapError f = .ok a ↔ x = .ok a := by
  cases x with
  | error e => simp [Except.mapError]
  | ok b => simp [Except.mapError]

theorem mapError_eq_error_iff {ε' : Type _} {x : Except ε α} {f : ε → ε'} {e' : ε'} :
    x.mapError f = .error e' ↔ ∃ e, x = .error e ∧ f e = e' := by
  cases x with
  | error e => simp [Except.mapError]
  | ok b => simp [Except.mapError]

theorem elim_eq_ok_iff {x : Option α} {e : ε} {a : α} :
    (x.elim (.error e) .ok : Except ε α) = .ok a ↔ x = some a := by
  cases x with
  | none => simp
  | some b => simp

theorem eq_ok_of_toOption {x : Except ε α} {a : α} (h : x.toOption = some a) : x = .ok a := by
  cases x with
  | error e => cases h
  | ok b =>
    cases h
    rfl

theorem bind_eq_ok_iff {x : Except ε α} {f : α → Except ε β} {b : β} :
    x >>= f = .ok b ↔ ∃ a, x = .ok a ∧ f a = .ok b := by
  cases x with
  | error e => simp [bind, Except.bind]
  | ok a => simp [bind, Except.bind]

theorem bind_eq_error_iff {x : Except ε α} {f : α → Except ε β} {e : ε} :
    x >>= f = .error e ↔ x = .error e ∨ ∃ a, x = .ok a ∧ f a = .error e := by
  cases x with
  | error e => simp [bind, Except.bind]
  | ok a => simp [bind, Except.bind]

theorem mapM_eq_ok_iff {f : α → Except ε β} {xs : List α} {ys : List β} :
    xs.mapM f = .ok ys ↔ List.Forall₂ (fun x y => f x = .ok y) xs ys := by
  induction xs generalizing ys with
  | nil =>
    rw [List.mapM_nil, List.forall₂_nil_left_iff]
    exact ⟨fun h => (Except.ok.inj h).symm, fun h => congrArg Except.ok h.symm⟩
  | cons x xs ih =>
    rw [List.mapM_cons, bind_eq_ok_iff]
    constructor
    · rintro ⟨y, hy, h⟩
      obtain ⟨rest, hrest, h⟩ := bind_eq_ok_iff.mp h
      cases h
      exact .cons hy (ih.mp hrest)
    · intro h
      cases h with
      | cons hy hrest => exact ⟨_, hy, bind_eq_ok_iff.mpr ⟨_, ih.mpr hrest, rfl⟩⟩

/-- All stages succeed if each of them does. -/
theorem exists_mapM_eq_ok_iff {f : α → Except ε β} {xs : List α} :
    (∃ ys, xs.mapM f = .ok ys) ↔ ∀ x ∈ xs, ∃ y, f x = .ok y := by
  simp only [mapM_eq_ok_iff]
  induction xs with
  | nil => simp
  | cons x xs ih =>
    rw [List.forall_mem_cons, ← ih]
    constructor
    · rintro ⟨_, h⟩
      cases h with
      | cons hy hrest => exact ⟨⟨_, hy⟩, _, hrest⟩
    · rintro ⟨⟨y, hy⟩, ys, hrest⟩
      exact ⟨y :: ys, .cons hy hrest⟩

theorem exists_of_mem_mapM {f : α → Except ε β} {xs : List α} {ys : List β} {y : β}
    (h : xs.mapM f = .ok ys) (hy : y ∈ ys) : ∃ x ∈ xs, f x = .ok y := by
  rw [mapM_eq_ok_iff] at h
  induction h with
  | nil => cases hy
  | cons hfirst _ ih =>
    rcases List.mem_cons.mp hy with rfl | hy
    · exact ⟨_, List.mem_cons_self, hfirst⟩
    · obtain ⟨x, hx, hxy⟩ := ih hy
      exact ⟨x, List.mem_cons_of_mem _ hx, hxy⟩

/-- The fault of all stages is that of the first one that fails. -/
theorem mapM_eq_error_iff {f : α → Except ε β} {xs : List α} {e : ε} :
    xs.mapM f = .error e ↔ ∃ front x rest, xs = front ++ x :: rest
      ∧ (∀ y ∈ front, ∃ z, f y = .ok z) ∧ f x = .error e := by
  constructor
  · intro h
    induction xs with
    | nil => cases h
    | cons x xs ih =>
      rw [List.mapM_cons, bind_eq_error_iff] at h
      rcases h with hx | ⟨y, hy, h⟩
      · exact ⟨[], x, xs, rfl, nofun, hx⟩
      · rw [bind_eq_error_iff] at h
        rcases h with hrest | ⟨ys, -, h⟩
        · obtain ⟨front, z, rest, rfl, hfront, hz⟩ := ih hrest
          exact ⟨x :: front, z, rest, rfl, List.forall_mem_cons.mpr ⟨⟨y, hy⟩, hfront⟩, hz⟩
        · cases h
  · rintro ⟨front, x, rest, rfl, hfront, hx⟩
    obtain ⟨ys, hys⟩ := exists_mapM_eq_ok_iff.mpr hfront
    rw [List.mapM_append, List.mapM_cons, hys, hx]
    rfl

/-- If one of the stages fails, some stage fails with that fault. -/
theorem exists_of_mapM_eq_error {f : α → Except ε β} {xs : List α} {e : ε}
    (h : xs.mapM f = .error e) : ∃ x ∈ xs, f x = .error e := by
  obtain ⟨front, x, rest, rfl, -, hx⟩ := mapM_eq_error_iff.mp h
  exact ⟨x, List.mem_append_right front List.mem_cons_self, hx⟩

/-- Whether a computation fails in certain ways only. -/
def FailsOnly (p : ε → Prop) (x : Except ε α) : Prop :=
  ∀ e, x = .error e → p e

namespace FailsOnly

variable {p : ε → Prop} {x : Except ε α} {f : α → Except ε β}

theorem of_eq_ok {a : α} (h : x = .ok a) : FailsOnly p x := by
  rw [h]
  exact nofun

theorem ok {a : α} : FailsOnly p (.ok a) := .of_eq_ok rfl

theorem error {e : ε} (h : p e) : FailsOnly p (.error e : Except ε α) := by
  intro _ he
  cases he
  exact h

theorem bind (hx : FailsOnly p x) (hf : ∀ a, x = .ok a → FailsOnly p (f a)) :
    FailsOnly p (x >>= f) := by
  intro e h
  rcases bind_eq_error_iff.mp h with h | ⟨a, ha, h⟩
  · exact hx e h
  · exact hf a ha e h

theorem map (hx : FailsOnly p x) {g : α → β} : FailsOnly p (x.map g) := by
  intro e h
  cases x with
  | error e' =>
    cases h
    exact hx e rfl
  | ok a => cases h

theorem mapM {xs : List α} (h : ∀ x ∈ xs, FailsOnly p (f x)) : FailsOnly p (xs.mapM f) := by
  intro e hfails
  obtain ⟨x, hx, he⟩ := exists_of_mapM_eq_error hfails
  exact h x hx e he

end FailsOnly

/-- Whether whatever a computation succeeds with has a property. -/
def Yields (p : α → Prop) (x : Except ε α) : Prop :=
  ∀ a, x = .ok a → p a

namespace Yields

variable {p : β → Prop} {x : Except ε α} {f : α → Except ε β}

theorem ok {b : β} (h : p b) : Yields p (.ok b : Except ε β) := by
  intro _ hb
  cases hb
  exact h

theorem error {e : ε} : Yields p (.error e : Except ε β) := nofun

theorem bind {q : α → Prop} (hx : Yields q x) (hf : ∀ a, q a → Yields p (f a)) :
    Yields p (x >>= f) := by
  intro b h
  obtain ⟨a, ha, hb⟩ := bind_eq_ok_iff.mp h
  exact hf a (hx a ha) b hb

/-- A stage that nothing is asked of. -/
theorem skip (hf : ∀ a, Yields p (f a)) : Yields p (x >>= f) :=
  bind (q := fun _ => True) (fun _ _ => trivial) fun a _ => hf a

theorem map {q : α → Prop} (hx : Yields q x) {g : α → β} (hg : ∀ a, q a → p (g a)) :
    Yields p (x.map g) := by
  intro b h
  obtain ⟨a, ha, rfl⟩ := map_eq_ok_iff.mp h
  exact hg a (hx a ha)

theorem mapError {δ : Type _} {y : Except ε β} (hy : Yields p y) {g : ε → δ} :
    Yields p (y.mapError g) :=
  fun b h => hy b (mapError_eq_ok_iff.mp h)

theorem mapM {xs : List α} (h : ∀ x ∈ xs, Yields p (f x)) :
    Yields (fun ys => ∀ y ∈ ys, p y) (xs.mapM f) := by
  intro ys hys y hy
  obtain ⟨x, hx, hxy⟩ := exists_of_mem_mapM hys hy
  exact h x hx y hxy

theorem foldlM {step : β → α → Except ε β} {xs : List α} {b : β} (hb : p b)
    (hstep : ∀ b, p b → ∀ a ∈ xs, Yields p (step b a)) : Yields p (xs.foldlM step b) := by
  induction xs generalizing b with
  | nil => exact .ok hb
  | cons a xs ih =>
    rw [List.foldlM_cons]
    obtain hfirst := hstep b hb a List.mem_cons_self
    exact .bind hfirst fun c hc => ih hc fun d hd e he => hstep d hd e (List.mem_cons_of_mem a he)

end Yields

/-- A run succeeds if every step from every state does. -/
theorem exists_foldlM_eq_ok {step : β → α → Except ε β} (h : ∀ b a, ∃ c, step b a = .ok c)
    (xs : List α) (b : β) : ∃ c, xs.foldlM step b = .ok c := by
  induction xs generalizing b with
  | nil => exact ⟨b, rfl⟩
  | cons a xs ih =>
    obtain ⟨c, hstep⟩ := h b a
    obtain ⟨d, hrun⟩ := ih c
    exact ⟨d, List.foldlM_cons.trans (bind_eq_ok_iff.mpr ⟨c, hstep, hrun⟩)⟩

/-- If a stage succeeds exactly under a condition, with a known result, then so do all stages. -/
theorem mapM_eq_ok_iff_map {f : α → Except ε β} {p : α → Prop} {g : α → β} {xs : List α}
    {ys : List β} (hf : ∀ x ∈ xs, ∀ y, f x = .ok y ↔ p x ∧ g x = y) :
    xs.mapM f = .ok ys ↔ (∀ x ∈ xs, p x) ∧ xs.map g = ys := by
  rw [mapM_eq_ok_iff]
  induction xs generalizing ys with
  | nil => simp [eq_comm]
  | cons x xs ih =>
    obtain ⟨hx, hxs⟩ := List.forall_mem_cons.mp hf
    rw [List.forall_mem_cons, List.map_cons]
    constructor
    · intro h
      cases h with
      | cons hfirst hrest =>
        obtain ⟨hp, rfl⟩ := (hx _).mp hfirst
        obtain ⟨hall, rfl⟩ := (ih hxs).mp hrest
        exact ⟨⟨hp, hall⟩, rfl⟩
    · rintro ⟨⟨hp, hall⟩, rfl⟩
      exact .cons ((hx _).mpr ⟨hp, rfl⟩) ((ih hxs).mpr ⟨hall, rfl⟩)

/-- If a step succeeds exactly under a condition that no state has a part in, with a known result,
then so does a run. -/
theorem foldlM_eq_ok_iff_foldl {step : β → α → Except ε β} {p : α → Prop} {next : β → α → β}
    (hstep : ∀ b a c, step b a = .ok c ↔ p a ∧ next b a = c) {xs : List α} {b c : β} :
    xs.foldlM step b = .ok c ↔ (∀ a ∈ xs, p a) ∧ xs.foldl next b = c := by
  induction xs generalizing b with
  | nil =>
    rw [List.foldlM_nil, List.foldl_nil]
    exact ⟨fun h => ⟨by simp, Except.ok.inj h⟩, fun h => congrArg Except.ok h.2⟩
  | cons a xs ih =>
    rw [List.foldlM_cons, bind_eq_ok_iff, List.forall_mem_cons, List.foldl_cons]
    constructor
    · rintro ⟨d, hd, hrest⟩
      obtain ⟨hp, rfl⟩ := (hstep b a d).mp hd
      obtain ⟨hall, hrun⟩ := ih.mp hrest
      exact ⟨⟨hp, hall⟩, hrun⟩
    · rintro ⟨⟨hp, hall⟩, hrun⟩
      exact ⟨_, (hstep b a _).mpr ⟨hp, rfl⟩, ih.mpr ⟨hall, hrun⟩⟩

end Tariff

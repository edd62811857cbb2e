import Tariff.Console.Session

/-!
# What a session has done

A session ends with a result, by an exit or by a failure. `Session.Gives` says that it ends with a
result, and in which state; for a session of several stages every stage has to give one
(`gives_bind`). `Session.ExitsWith` says which codes it may exit with, so that a command whose
outcome looks like a success is known to have given a result (`Session.gives_of_run`).
-/

namespace Tariff.Console

variable {α β : Type} {s s' : State}

/-! ## Sessions that give a result -/

/-- How a session ends from a state, and in which state. -/
def Session.ending (x : Session α) (s : State) : Except Stop α × State :=
  (ExceptT.run x).run s

/-- From a state, a session ends with a result in another state. -/
def Session.Gives (x : Session α) (s : State) (a : α) (s' : State) : Prop :=
  x.ending s = (.ok a, s')

/-- What a session of two stages comes to. -/
theorem ending_bind (x : Session α) (f : α → Session β) (s : State) :
    (x >>= f).ending s = match x.ending s with
      | (.ok a, t) => (f a).ending t
      | (.error e, t) => (.error e, t) := by
  show (match (ExceptT.run x).run s with
    | (r, t) => (ExceptT.bindCont f r).run t : Except Stop β × State) = _
  rw [Session.ending]
  rcases (ExceptT.run x).run s with ⟨r, t⟩
  cases r <;> rfl

theorem gives_bind {x : Session α} {f : α → Session β} {b : β} :
    (x >>= f).Gives s b s' ↔ ∃ a t, x.Gives s a t ∧ (f a).Gives t b s' := by
  simp only [Session.Gives, ending_bind]
  rcases x.ending s with ⟨e | a, t⟩
  · simp
  · refine ⟨fun h => ⟨a, t, rfl, h⟩, ?_⟩
    rintro ⟨_, _, ⟨⟩, h⟩
    exact h

theorem gives_pure {a b : α} : (pure a : Session α).Gives s b s' ↔ a = b ∧ s = s' := by
  show ((.ok a, s) : Except Stop α × State) = (.ok b, s') ↔ _
  simp

theorem gives_get {t : State} : (get : Session State).Gives s t s' ↔ s = t ∧ s = s' := by
  show ((.ok s, s) : Except Stop State × State) = (.ok t, s') ↔ _
  simp

theorem gives_modify {f : State → State} {u : Unit} :
    (modify f : Session Unit).Gives s u s' ↔ f s = s' := by
  show ((.ok (), f s) : Except Stop Unit × State) = (.ok u, s') ↔ _
  simp

theorem not_gives_throw {stop : Stop} {a : α} : ¬ (throw stop : Session α).Gives s a s' := by
  show ¬ ((.error stop, s) : Except Stop α × State) = (.ok a, s')
  simp

theorem not_gives_exit {code : Int} {a : α} : ¬ (exit code : Session α).Gives s a s' :=
  not_gives_throw

theorem gives_orFail {ε : Type} {failure : ε → Failure} {e : Except ε α} {a : α} :
    (orFail failure e).Gives s a s' ↔ e = .ok a ∧ s = s' := by
  cases e with
  | error e => exact iff_of_false not_gives_throw (by simp)
  | ok b => rw [orFail, gives_pure, Except.ok.injEq]

/-- A text with more lines printed behind it. -/
def printedAfter (text : String) (lines : List String) : String :=
  lines.foldl (fun text line => text ++ line ++ "\n") text

theorem gives_say {line : String} {u : Unit} :
    (say line).Gives s u s' ↔ { s with printed := s.printed ++ line ++ "\n" } = s' :=
  gives_modify

theorem gives_sayAll {lines : List String} {u : Unit} :
    (sayAll lines).Gives s u s' ↔ { s with printed := printedAfter s.printed lines } = s' := by
  induction lines generalizing s with
  | nil => exact gives_pure.trans (and_iff_right rfl)
  | cons line lines ih =>
    show (say line >>= fun _ => sayAll lines).Gives s u s' ↔ _
    simp [gives_bind, gives_say, ih, printedAfter]

/-! ## Codes that a session exits with -/

/-- A session exits with codes of one sort only. -/
def Session.ExitsWith (p : Int → Prop) (x : Session α) : Prop :=
  ∀ s code s', x.ending s = (.error (.exit code), s') → p code

variable {p : Int → Prop}

theorem exitsWith_bind {x : Session α} {f : α → Session β} (hx : x.ExitsWith p)
    (hf : ∀ a, (f a).ExitsWith p) : (x >>= f).ExitsWith p := by
  intro s code s' h
  rw [ending_bind] at h
  rcases hrun : x.ending s with ⟨e | a, t⟩
  · rw [hrun] at h
    obtain ⟨rfl, rfl⟩ : e = .exit code ∧ t = s' := by simpa using h
    exact hx s code t hrun
  · rw [hrun] at h
    exact hf a t code s' h

theorem exitsWith_pure {a : α} : (pure a : Session α).ExitsWith p := by
  intro s code s' h
  cases h

theorem exitsWith_get : (get : Session State).ExitsWith p := by
  intro s code s' h
  cases h

theorem exitsWith_modify {f : State → State} : (modify f : Session Unit).ExitsWith p := by
  intro s code s' h
  cases h

theorem exitsWith_failure {f : Failure} : (throw (.failure f) : Session α).ExitsWith p := by
  intro s code s' h
  cases h

theorem exitsWith_exit {code : Int} (h : p code) : (exit code : Session α).ExitsWith p := by
  intro s other s' hrun
  cases hrun
  exact h

theorem exitsWith_orFail {ε : Type} {failure : ε → Failure} {e : Except ε α} :
    (orFail failure e).ExitsWith p := by
  cases e with
  | error e => exact exitsWith_failure
  | ok a => exact exitsWith_pure

theorem exitsWith_sayAll {lines : List String} : (sayAll lines).ExitsWith p := by
  induction lines with
  | nil => exact exitsWith_pure
  | cons line lines ih => exact exitsWith_bind exitsWith_modify fun _ => ih

/-- **A command that never exits with zero has given a result** if its outcome is a success. -/
theorem Session.gives_of_run {x : Session Unit} (hx : x.ExitsWith (· ≠ 0)) {place : Entry}
    {launchEnd : LaunchEnd} (hcode : (x.run place launchEnd).code = 0)
    (hfailure : (x.run place launchEnd).failure? = none) :
    x.Gives ⟨"", place, [], [], launchEnd⟩ () (x.run place launchEnd).state := by
  have hrun : x.run place launchEnd = match x.ending ⟨"", place, [], [], launchEnd⟩ with
      | (.ok (), s) => ⟨0, none, s⟩
      | (.error (.exit code), s) => ⟨code, none, s⟩
      | (.error (.failure f), s) => ⟨0, some f, s⟩ := rfl
  rw [hrun] at hcode hfailure ⊢
  rw [Session.Gives]
  rcases hending : x.ending ⟨"", place, [], [], launchEnd⟩ with ⟨stop | ⟨⟨⟩⟩, s⟩
  · rw [hending] at hcode hfailure
    cases stop with
    | exit code => exact absurd hcode (hx _ code s hending)
    | failure f => cases hfailure
  · rfl

end Tariff.Console

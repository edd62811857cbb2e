import Tariff.Proofs.Number
import Tariff.Proofs.OrderedMap
import Tariff.Proofs.Outcome
import Tariff.Quote

/-!
# Shared answers

The formulas of a quote are run over twice. The first run collects what is shared: an answer is
offered under the key of its variable, and is taken only if nothing is shared under that key so far.
The second run hands out what is shared to the variables that have a key and no answer.

Keys are the same if their values are, which is symmetric and transitive. So an offer that is not
taken could as well stand at the end of the list (`SharedAnswers.find?_offer`), and both runs have a
plain meaning:

* `QuoteRequest.find?_sharedAnswers` — what is shared under a key is the first answer with that key,
  of the shared answers that are given and then of all own answers in their order;
* `QuoteRequest.foldlM_connect_eq_ok_iff` — a formula is priced with its own answers, and after them
  what is shared under the key of each variable that has none.
-/

namespace Tariff

/-! ## Keys -/

namespace ConnectionKey

theorem same_trans {k l m : ConnectionKey} (hkl : k.same l = true) (hlm : l.same m = true) :
    k.same m = true := by
  cases k with
  | text s =>
    cases l with
    | text t =>
      rw [same, beq_iff_eq] at hkl
      rw [hkl]
      exact hlm
    | number n => cases hkl
  | number a =>
    cases l with
    | text t => cases hkl
    | number b =>
      cases m with
      | text t => cases hlm
      | number c => exact Number.equals_trans hkl hlm

end ConnectionKey

namespace Variable

/-- The key is one under which answers can be shared: it is no list and no record. -/
def HasFitKey (v : Variable) : Prop :=
  ∃ key?, v.connectionKey? = .ok key?

instance (v : Variable) : Decidable v.HasFitKey :=
  match h : v.connectionKey? with
  | .ok key? => isTrue ⟨key?, h⟩
  | .error _ => isFalse fun ⟨_, hkey⟩ => nomatch h.symm.trans hkey

/-- The key of a variable that has a fit one. -/
def sharedKey? (v : Variable) : Option ConnectionKey :=
  match v.connectionKey? with
  | .ok key? => key?
  | .error _ => none

theorem connectionKey?_of_hasFitKey {v : Variable} (h : v.HasFitKey) :
    v.connectionKey? = .ok v.sharedKey? := by
  obtain ⟨key?, hkey⟩ := h
  rw [sharedKey?, hkey]

/-- Whatever is done with the key of a variable, it is done only if the key is fit. -/
theorem bind_connectionKey?_eq_ok_iff {α : Type} {v : Variable}
    {next : Option ConnectionKey → Except QuoteFault α} {a : α} :
    v.connectionKey? >>= next = .ok a ↔ v.HasFitKey ∧ next v.sharedKey? = .ok a := by
  rw [bind_eq_ok_iff]
  constructor
  · rintro ⟨key?, hkey, h⟩
    refine ⟨⟨key?, hkey⟩, ?_⟩
    rw [sharedKey?, hkey]
    exact h
  · rintro ⟨hfit, h⟩
    exact ⟨_, connectionKey?_of_hasFitKey hfit, h⟩

/-- What a variable offers to others: the answer to it, if it has a key. -/
def offer? (v : Variable) (answers : Answers) : Option (ConnectionKey × Value) := do
  let answer ← answers.find? v.id
  let key ← v.sharedKey?
  return (key, answer)

end Variable

/-! ## What is shared under a key -/

namespace SharedAnswers

variable {shared : SharedAnswers} {key : ConnectionKey} {answer : Value}

theorem find?_append (shared more : SharedAnswers) (key : ConnectionKey) :
    find? (shared ++ more) key = (find? shared key).or (find? more key) := by
  unfold find?
  rw [List.find?_append]
  cases List.find? (fun e => e.1.same key) shared <;> rfl

theorem exists_mem_of_find? (h : find? shared key = some answer) :
    ∃ e ∈ shared, e.1.same key = true ∧ e.2 = answer := by
  obtain ⟨e, he, rfl⟩ := Option.map_eq_some_iff.mp h
  have hsame := List.find?_some he
  exact ⟨e, List.mem_of_find?_eq_some he, hsame, rfl⟩

theorem find?_isSome_iff :
    (find? shared key).isSome = true ↔ ∃ e ∈ shared, e.1.same key = true := by
  unfold find?
  rw [Option.isSome_map, List.find?_isSome]

/-- What is shared under a key is shared under every key that is the same. -/
theorem find?_isSome_of_same {other : ConnectionKey} (hsame : key.same other = true)
    (h : (find? shared key).isSome = true) : (find? shared other).isSome = true := by
  obtain ⟨e, he, hkey⟩ := find?_isSome_iff.mp h
  exact find?_isSome_iff.mpr ⟨e, he, ConnectionKey.same_trans hkey hsame⟩

/-- An offer is looked up like an answer at the end of the list, whether it is taken or not. -/
theorem find?_offer (own : ConnectionKey) (key : ConnectionKey) :
    find? (shared.offer own answer) key = find? (shared ++ [(own, answer)]) key := by
  unfold offer
  split
  · next htaken =>
    -- the offer is not taken, so under every key that is the same something else is shared
    rw [find?_append]
    cases hsame : own.same key with
    | true =>
      have hfound := find?_isSome_of_same hsame htaken
      rw [Option.or_of_isSome hfound]
    | false =>
      have hnone : find? [(own, answer)] key = none := by
        unfold find?
        rw [List.find?_singleton, hsame]
        rfl
      rw [hnone, Option.or_none]
  · rfl

/-- What is shared after some more offers. -/
def offerAll (shared offers : SharedAnswers) : SharedAnswers :=
  offers.foldl (fun shared e => shared.offer e.1 e.2) shared

/-- **The first answer under a key is shared**, whatever is offered later. -/
theorem find?_offerAll (shared offers : SharedAnswers) (key : ConnectionKey) :
    find? (shared.offerAll offers) key = find? (shared ++ offers) key := by
  unfold offerAll
  induction offers generalizing shared with
  | nil => rw [List.append_nil]; rfl
  | cons e offers ih =>
    have hsplit : shared ++ e :: offers = shared ++ [e] ++ offers := by simp
    rw [List.foldl_cons, ih, hsplit, find?_append, find?_append, find?_offer]

end SharedAnswers

namespace QuoteRequest

variable {q : QuoteRequest}

/-! ## The first run -/

/-- The shared answers that are given. -/
def given (q : QuoteRequest) : SharedAnswers :=
  q.shared.map fun e => (.text e.1, e.2)

/-- The answers that variables with a key have of their own, formula by formula and variable by
variable. -/
def ownAnswers (q : QuoteRequest) : SharedAnswers :=
  q.formulas.flatMap fun f => f.questions.filterMap fun v => v.offer? (q.answersTo f)

/-- What is shared under a key: the answer that is given for it, or else the first own one. -/
def sharedAnswer? (q : QuoteRequest) (key : ConnectionKey) : Option Value :=
  SharedAnswers.find? (q.given ++ q.ownAnswers) key

/-- Every variable with an answer has a fit key. -/
def OffersFit (q : QuoteRequest) : Prop :=
  ∀ f ∈ q.formulas, ∀ v ∈ f.questions,
    ((q.answersTo f).find? v.id).isSome = true → v.HasFitKey

/-- A variable is passed over if there is no answer to it; if there is one, its key has to be fit.
-/
theorem shareAnswers_eq_ok_iff (answers : Answers) (shared : SharedAnswers) (v : Variable)
    (after : SharedAnswers) :
    shareAnswers answers shared v = .ok after
      ↔ ((answers.find? v.id).isSome = true → v.HasFitKey)
        ∧ shared.offerAll (v.offer? answers).toList = after := by
  unfold shareAnswers Variable.offer?
  cases answers.find? v.id with
  | none =>
    show Except.ok shared = .ok after ↔ (false = true → _) ∧ shared = after
    simp
  | some answer =>
    show v.connectionKey? >>= _ = .ok after ↔ (true = true → v.HasFitKey) ∧ _
    rw [Variable.bind_connectionKey?_eq_ok_iff, forall_prop_of_true rfl]
    cases v.sharedKey? with
    | none => exact and_congr_right fun _ => Iff.of_eq (Except.ok.injEq shared after)
    | some key => exact and_congr_right fun _ => Iff.of_eq (Except.ok.injEq _ after)

/-- The first run comes to an end if every key it meets is fit, and then every own answer has been
offered. -/
theorem sharedAnswers_eq_ok_iff {shared : SharedAnswers} :
    q.sharedAnswers = .ok shared
      ↔ q.OffersFit ∧ q.given.offerAll q.ownAnswers = shared := by
  have hformula : ∀ (before : SharedAnswers) (f : Formula) (after : SharedAnswers),
      f.questions.foldlM (shareAnswers (q.answersTo f)) before = .ok after
        ↔ (∀ v ∈ f.questions, ((q.answersTo f).find? v.id).isSome = true → v.HasFitKey)
          ∧ before.offerAll (f.questions.filterMap fun v => v.offer? (q.answersTo f)) = after := by
    intro before f after
    rw [List.filterMap_eq_flatMap_toList, SharedAnswers.offerAll, List.foldl_flatMap]
    exact foldlM_eq_ok_iff_foldl (shareAnswers_eq_ok_iff (q.answersTo f))
  rw [SharedAnswers.offerAll, ownAnswers, List.foldl_flatMap]
  exact foldlM_eq_ok_iff_foldl hformula

/-- **What the first run shares** under a key is the first answer with that key: the one that is
given, or else the first own one. -/
theorem find?_sharedAnswers {shared : SharedAnswers} (h : q.sharedAnswers = .ok shared)
    (key : ConnectionKey) : shared.find? key = q.sharedAnswer? key := by
  obtain ⟨-, rfl⟩ := sharedAnswers_eq_ok_iff.mp h
  exact SharedAnswers.find?_offerAll q.given q.ownAnswers key

/-! ## The second run -/

/-- What a variable without an answer is given from what is shared. -/
def received? (find : ConnectionKey → Option Value) (answers : Answers) (v : Variable) :
    Option Value :=
  if answers.contains v.id then none else v.sharedKey?.bind find

/-- What the variables without an answer are given, under their ids. -/
def received (find : ConnectionKey → Option Value) (answers : Answers)
    (questions : List Variable) : Answers :=
  questions.filterMap fun v => (received? find answers v).map fun answer => (v.id, answer)

section Received

variable {shared : SharedAnswers} {find : ConnectionKey → Option Value} {answers : Answers}
  {ids : List String} {v : Variable} {questions : List Variable}

theorem not_contains_of_received? {answer : Value} (h : received? find answers v = some answer) :
    answers.contains v.id = false := by
  unfold received? at h
  split at h
  · cases h
  · next hopen => simpa using hopen

/-- An answer to another variable has no part in what a variable is given. -/
theorem received?_append {id : String} {answer : Value} (h : v.id ≠ id) :
    received? find (answers ++ [(id, answer)]) v = received? find answers v := by
  rw [received?, received?, OrderedMap.contains_append_of_ne h]

theorem received_append {id : String} {answer : Value} (h : ∀ w ∈ questions, w.id ≠ id) :
    received find (answers ++ [(id, answer)]) questions = received find answers questions := by
  refine List.filterMap_congr fun w hw => ?_
  rw [received?_append (h w hw)]

theorem received_cons_of_none (h : received? find answers v = none) :
    received find answers (v :: questions) = received find answers questions := by
  rw [received, List.filterMap_cons, h]
  rfl

theorem received_cons_of_some {answer : Value} (h : received? find answers v = some answer) :
    received find answers (v :: questions) = (v.id, answer) :: received find answers questions := by
  rw [received, List.filterMap_cons, h]
  rfl

theorem find?_received (hids : (questions.map (·.id)).Nodup) (hv : v ∈ questions) :
    (received find answers questions).find? v.id = received? find answers v :=
  OrderedMap.find?_filterMap_of_mem hids hv

/-- One step of the second run looks at the key of a variable only if there is no answer to it. -/
theorem connect_eq_ok_iff {after : Answers × List String} :
    connect shared (answers, ids) v = .ok after
      ↔ (answers.contains v.id = false → v.HasFitKey)
        ∧ ((received? shared.find? answers v).elim (answers, ids) fun answer =>
          (answers.insert v.id answer, ids ++ [v.id])) = after := by
  unfold connect received?
  cases answers.contains v.id with
  | true =>
    show Except.ok (answers, ids) = .ok after ↔ (true = false → _) ∧ (answers, ids) = after
    simp
  | false =>
    show v.connectionKey? >>= _ = .ok after ↔ (false = false → v.HasFitKey) ∧ _
    rw [Variable.bind_connectionKey?_eq_ok_iff, forall_prop_of_true rfl]
    cases v.sharedKey? with
    | none => exact and_congr_right fun _ => Iff.of_eq (Except.ok.injEq (answers, ids) after)
    | some key =>
      rw [if_neg Bool.false_ne_true, Option.bind_some]
      dsimp only
      cases shared.find? key with
      | none => exact and_congr_right fun _ => Iff.of_eq (Except.ok.injEq (answers, ids) after)
      | some answer => exact and_congr_right fun _ => Iff.of_eq (Except.ok.injEq _ after)

/-- **What the second run hands out.** It comes to an end if the variables without an answer have
fit keys. Then what is shared under these keys stands after the answers, and the variables that it
is given to are remembered. -/
theorem foldlM_connect_eq_ok_iff (hids : (questions.map (·.id)).Nodup)
    {after : Answers × List String} :
    questions.foldlM (connect shared) (answers, ids) = .ok after
      ↔ (∀ v ∈ questions, answers.contains v.id = false → v.HasFitKey)
        ∧ (answers ++ received shared.find? answers questions,
          ids ++ (received shared.find? answers questions).keys) = after := by
  induction questions generalizing answers ids with
  | nil =>
    rw [List.foldlM_nil]
    show Except.ok (answers, ids) = .ok after ↔ _ ∧ (answers ++ [], ids ++ []) = after
    simp
  | cons v rest ih =>
    obtain ⟨hfresh, hrest⟩ := List.nodup_cons.mp hids
    have hne : ∀ w ∈ rest, w.id ≠ v.id := by
      intro w hw heq
      apply hfresh
      show v.id ∈ rest.map (·.id)
      rw [← heq]
      exact List.mem_map_of_mem hw
    rw [List.foldlM_cons, bind_eq_ok_iff, List.forall_mem_cons]
    simp only [connect_eq_ok_iff, and_assoc, exists_and_left, exists_eq_left']
    cases hown : received? shared.find? answers v with
    | none =>
      rw [received_cons_of_none hown, ← ih hrest]
      rfl
    | some answer =>
      have hnew : v.id ∉ answers.keys := by
        rw [← OrderedMap.contains_iff, not_contains_of_received? hown]
        exact Bool.false_ne_true
      -- the variables that follow are treated as if nothing had been handed out
      have hfits : (∀ w ∈ rest, answers.contains w.id = false → w.HasFitKey)
          ↔ ∀ w ∈ rest, (answers ++ [(v.id, answer)]).contains w.id = false → w.HasFitKey := by
        refine forall₂_congr fun w hw => ?_
        rw [OrderedMap.contains_append_of_ne (hne w hw)]
      have hafter : (answers ++ received shared.find? answers (v :: rest),
            ids ++ (received shared.find? answers (v :: rest)).keys)
          = (answers ++ [(v.id, answer)]
              ++ received shared.find? (answers ++ [(v.id, answer)]) rest,
            ids ++ [v.id] ++ (received shared.find? (answers ++ [(v.id, answer)]) rest).keys) := by
        rw [received_append hne, received_cons_of_some hown, List.append_assoc, List.append_assoc]
        rfl
      rw [hafter, hfits, ← ih hrest, ← OrderedMap.insert_of_not_mem hnew]
      rfl

end Received

end QuoteRequest

end Tariff

import Tariff.Proofs.Identifier

/-!
# Fresh ids, one and many

The search for a free counter is written with a bound on its tries. `EndsAt` is the same search with
nothing to end it but a free counter: it ends all the same, at the least one (`endsAt_iff`), and
where the bounded search does (`endsAt_firstFree`).

Ids for several labels are made one after the other, each with the ids before it (`idsAfter`). So no
two of them are the same (`idsAfter_fresh`), and more labels add ids at the end and change none
(`idsAfter_append`). `fresh_takes_least_free` says this of one id and of the ids for a list of
options.
-/

namespace Tariff.Identifier

/-! ## The search for a counter -/

/-- The search that passes over one taken counter after the other: from `k` on it ends at `n`. -/
inductive EndsAt (base : String) (taken : List String) : Nat → Nat → Prop where
  | free {k : Nat} (hfree : numbered base k ∉ taken) : EndsAt base taken k k
  | next {k n : Nat} (htaken : numbered base k ∈ taken) (hrest : EndsAt base taken (k + 1) n) :
    EndsAt base taken k n

section Search

variable {base : String} {taken : List String} {k n : Nat}

/-- A search that passes over taken counters goes on behind them. -/
theorem EndsAt.of_taken {m : Nat} (htaken : ∀ i < m, numbered base (k + i : Nat) ∈ taken)
    (hrest : EndsAt base taken (k + m) n) : EndsAt base taken k n := by
  induction m generalizing k with
  | zero => exact hrest
  | succ m ih =>
    apply EndsAt.next (htaken 0 (by omega))
    apply ih
    · intro i hi
      have hshift : k + 1 + i = k + (i + 1) := by omega
      rw [hshift]
      exact htaken (i + 1) (by omega)
    · have hshift : k + 1 + m = k + (m + 1) := by omega
      rwa [hshift]

/-- **A search ends at the least counter that is free.** -/
theorem endsAt_iff : EndsAt base taken k n
    ↔ k ≤ n ∧ numbered base n ∉ taken ∧ ∀ j : Nat, k ≤ j → j < n → numbered base j ∈ taken := by
  constructor
  · intro h
    induction h with
    | free hfree => exact ⟨Nat.le_refl _, hfree, by omega⟩
    | @next k n htaken _ ih =>
      obtain ⟨hle, hfree, hbefore⟩ := ih
      refine ⟨by omega, hfree, fun j hj hlt => ?_⟩
      rcases Nat.eq_or_lt_of_le hj with rfl | hlater
      · exact htaken
      · exact hbefore j hlater hlt
  · rintro ⟨hle, hfree, hbefore⟩
    have hend : k + (n - k) = n := by omega
    apply EndsAt.of_taken (m := n - k)
    · intro i hi
      exact hbefore (k + i) (by omega) (by omega)
    · rw [hend]
      exact .free hfree

/-- The bounded search has tries enough: it ends where the other one does. -/
theorem endsAt_firstFree (base : String) (taken : List String) (k : Nat) :
    EndsAt base taken k (firstFree base taken k taken.length) := by
  obtain ⟨n, hfirst, hbefore, hfree⟩ := firstFree_spec base taken k
  rw [hfirst]
  exact .of_taken hbefore (.free hfree)

end Search

/-! ## Ids one after the other -/

/-- Ids for labels, each different from those that are taken and from those before it. -/
def idsAfter (fallback : String) (limit : Int) (taken : List String) : List String → List String
  | [] => []
  | label :: labels =>
    let id := forLabel fallback label taken.length taken limit
    id :: idsAfter fallback limit (taken ++ [id]) labels

section Ids

variable (fallback : String) (limit : Int)

theorem forOptionsAfter_eq (done labels : List String) :
    forOptionsAfter limit done labels = done ++ idsAfter "option" limit done labels := by
  induction labels generalizing done with
  | nil => exact (List.append_nil done).symm
  | cons label labels ih =>
    rw [forOptionsAfter, idsAfter, ih, List.append_assoc]
    rfl

theorem forOptions_eq (labels : List String) :
    forOptions labels limit = idsAfter "option" limit [] labels :=
  forOptionsAfter_eq limit [] labels

theorem length_idsAfter (taken labels : List String) :
    (idsAfter fallback limit taken labels).length = labels.length := by
  induction labels generalizing taken with
  | nil => rfl
  | cons label labels ih => rw [idsAfter, List.length_cons, List.length_cons, ih]

/-- More labels get more ids, made with those before them. -/
theorem idsAfter_append (taken labels more : List String) :
    idsAfter fallback limit taken (labels ++ more)
      = idsAfter fallback limit taken labels
        ++ idsAfter fallback limit (taken ++ idsAfter fallback limit taken labels) more := by
  induction labels generalizing taken with
  | nil => rw [List.nil_append, idsAfter, List.nil_append, List.append_nil]
  | cons label labels ih =>
    rw [List.cons_append, idsAfter, idsAfter, ih, List.cons_append, List.append_assoc]
    rfl

/-- The id of each label is made with those before it. -/
theorem getElem?_idsAfter (taken : List String) {labels : List String} {i : Nat} {label : String}
    (h : labels[i]? = some label) :
    (idsAfter fallback limit taken labels)[i]?
      = some (forLabel fallback label (taken.length + i)
        (taken ++ (idsAfter fallback limit taken labels).take i) limit) := by
  induction labels generalizing taken i with
  | nil => cases h
  | cons first labels ih =>
    cases i with
    | zero =>
      obtain rfl : first = label := Option.some.inj h
      simp [idsAfter]
    | succ i =>
      have hrest := ih (taken ++ [forLabel fallback first taken.length taken limit]) h
      rw [idsAfter, List.getElem?_cons_succ, hrest, List.take_succ_cons, List.append_assoc,
        List.length_append, List.length_singleton]
      simp [Int.add_assoc, Int.add_comm 1]

/-- **No id is taken, and none is made twice.** -/
theorem idsAfter_fresh (taken labels : List String) :
    (idsAfter fallback limit taken labels).Nodup
      ∧ ∀ id ∈ idsAfter fallback limit taken labels, id ∉ taken := by
  induction labels generalizing taken with
  | nil => exact ⟨List.nodup_nil, List.forall_mem_nil _⟩
  | cons label labels ih =>
    have hfirst : forLabel fallback label taken.length taken limit ∉ taken := fresh_not_mem _ _
    obtain ⟨hnodup, hrest⟩ := ih (taken ++ [forLabel fallback label taken.length taken limit])
    rw [idsAfter]
    -- the later ids differ from what is taken, and from the first one
    refine ⟨List.nodup_cons.mpr ⟨fun hmem => hrest _ hmem (by simp), hnodup⟩, ?_⟩
    refine List.forall_mem_cons.mpr ⟨hfirst, fun id hid htaken => ?_⟩
    exact hrest id hid (List.mem_append_left _ htaken)

end Ids

/-- **A fresh id is the first that is free.** It is its base, or, if that is taken, the base with
the least counter from two on that is not, at which the search for it ends. So the ids for a list of
options are as many as the options, no two of them are the same, each is the first that is free
beside those before it, and options that are added at the end change none of them. -/
theorem fresh_takes_least_free (base : String) (taken labels : List String) (limit : Int) :
    ((base ∉ taken ∧ fresh base taken = base)
        ∨ base ∈ taken ∧ ∃ k : Nat, EndsAt base taken 2 k ∧ fresh base taken = numbered base k
          ∧ 2 ≤ k ∧ ∀ j : Nat, 2 ≤ j → j < k → numbered base j ∈ taken)
      ∧ fresh base taken ∉ taken
      ∧ (forOptions labels limit).length = labels.length
      ∧ (forOptions labels limit).Nodup
      ∧ (∀ (i : Nat) (label : String), labels[i]? = some label →
        (forOptions labels limit)[i]?
          = some (fresh (labelBase "option" label i limit) ((forOptions labels limit).take i)))
      ∧ ∀ more, forOptions labels limit <+: forOptions (labels ++ more) limit := by
  refine ⟨?_, fresh_not_mem base taken, ?_⟩
  · by_cases hbase : base ∈ taken
    · have hends := endsAt_firstFree base taken 2
      obtain ⟨hle, -, hbefore⟩ := endsAt_iff.mp hends
      have hfresh : fresh base taken = numbered base (firstFree base taken 2 taken.length) := by
        rw [fresh, if_pos (List.contains_iff_mem.mpr hbase)]
      exact Or.inr ⟨hbase, _, hends, hfresh, hle, hbefore⟩
    · have hfresh : fresh base taken = base := by
        rw [fresh, if_neg fun h => hbase (List.contains_iff_mem.mp h)]
      exact Or.inl ⟨hbase, hfresh⟩
  · rw [forOptions_eq]
    refine ⟨length_idsAfter _ _ _ _, (idsAfter_fresh _ _ _ _).1, fun i label h => ?_,
      fun more => ?_⟩
    · have hat := getElem?_idsAfter "option" limit [] h
      have hplace : (([] : List String).length : Int) + i = i := by simp
      rw [hplace, List.nil_append, forLabel_eq] at hat
      exact hat
    · rw [forOptions_eq, idsAfter_append]
      exact List.prefix_append _ _

end Tariff.Identifier

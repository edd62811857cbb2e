import Mathlib.Data.List.Nodup
import Mathlib.Data.List.Perm.Subperm
import Tariff.Identifier
import Tariff.Proofs.Expression.Factor
import Tariff.Proofs.Numeral.Digits

/-!
# Ids of one's own

An id that is made for a label is the label's slug, or a fallback with the place of the label, and a
counter is put at its end if it is taken. The search for the counter ends at one that is free:
different counters make different ids, so not all of the first ones can be taken
(`firstFree_spec`, `fresh_cases`). Whatever the label is, the id is a word (`isWord_fresh`).
-/

namespace Tariff.Identifier

open Expression Numeral Text

/-! ## Ids with a counter -/

theorem toList_numbered (base : String) (k : Nat) :
    (numbered base k).toList = base.toList ++ '_' :: digits k := by
  have htext : (integerText k).toList = digits k := by
    rw [integerText, if_neg (by omega), String.toList_ofList, Int.natAbs_natCast]
  rw [numbered, String.toList_append, String.toList_append, htext, List.append_assoc]
  rfl

/-- Different counters make different ids: the digits of a counter spell it. -/
theorem numbered_inj {base : String} {i j : Nat} (h : numbered base i = numbered base j) :
    i = j := by
  have hchars := congrArg String.toList h
  rw [toList_numbered, toList_numbered] at hchars
  have hdigits : digits i = digits j :=
    (List.cons.inj (List.append_cancel_left hchars)).2
  rw [← ofDigits_digits i, hdigits, ofDigits_digits]

/-- No more ids are taken than there are in the list of those taken. -/
theorem le_length_of_numbered_mem {base : String} {taken : List String} {k n : Nat}
    (h : ∀ i < n, numbered base (k + i : Nat) ∈ taken) : n ≤ taken.length := by
  -- these ids are as many as their counters, and each of them is one of those taken
  have hnodup : ((List.range n).map fun i => numbered base (k + i : Nat)).Nodup := by
    refine List.Nodup.map (fun i j hij => ?_) List.nodup_range
    have hsum := numbered_inj hij
    omega
  have hsubset : ((List.range n).map fun i => numbered base (k + i : Nat)) ⊆ taken := by
    intro id hid
    obtain ⟨i, hi, rfl⟩ := List.mem_map.mp hid
    exact h i (List.mem_range.mp hi)
  have hlength := (List.subperm_of_subset hnodup hsubset).length_le
  rwa [List.length_map, List.length_range] at hlength

/-- The search passes over counters that are taken, and stops before its fuel runs out only at one
that is free. -/
theorem firstFree_cases (base : String) (taken : List String) (k fuel : Nat) :
    ∃ n ≤ fuel, firstFree base taken k fuel = k + n
      ∧ (∀ i < n, numbered base (k + i : Nat) ∈ taken)
      ∧ (n < fuel → numbered base (k + n : Nat) ∉ taken) := by
  induction fuel generalizing k with
  | zero => exact ⟨0, Nat.le_refl 0, rfl, by simp, by simp⟩
  | succ fuel ih =>
    rw [firstFree]
    split
    · next htaken =>
      -- the rest of the search counts from the next counter on
      obtain ⟨n, hn, hfirst, hbefore, hfree⟩ := ih (k + 1)
      have hshift : ∀ i, k + 1 + i = k + (i + 1) := by omega
      refine ⟨n + 1, Nat.succ_le_succ hn, by rw [hfirst, hshift], fun i hi => ?_, fun hlt => ?_⟩
      · cases i with
        | zero => exact List.contains_iff_mem.mp htaken
        | succ i =>
          rw [← hshift]
          exact hbefore i (by omega)
      · rw [← hshift]
        exact hfree (by omega)
    · next hfree =>
      refine ⟨0, Nat.zero_le _, rfl, by simp, fun _ hmem => ?_⟩
      exact hfree (List.contains_iff_mem.mpr hmem)

/-- **With one try for every id that is taken, the search finds the first counter that is free.** -/
theorem firstFree_spec (base : String) (taken : List String) (k : Nat) :
    ∃ n, firstFree base taken k taken.length = k + n
      ∧ (∀ i < n, numbered base (k + i : Nat) ∈ taken)
      ∧ numbered base (k + n : Nat) ∉ taken := by
  obtain ⟨n, hn, hfirst, hbefore, hfree⟩ := firstFree_cases base taken k taken.length
  refine ⟨n, hfirst, hbefore, fun hmem => ?_⟩
  -- otherwise one more id is taken than there are
  have hall : ∀ i < n + 1, numbered base (k + i : Nat) ∈ taken := by
    intro i hi
    rcases Nat.lt_succ_iff_lt_or_eq.mp hi with hlt | rfl
    · exact hbefore i hlt
    · exact hmem
  have hmany := le_length_of_numbered_mem hall
  exact hfree (by omega) hmem

/-! ## Fresh ids -/

/-- A fresh id is the base if that is free, and else the base with the least free counter. -/
theorem fresh_cases (base : String) (taken : List String) :
    (base ∉ taken ∧ fresh base taken = base)
      ∨ base ∈ taken ∧ ∃ k : Nat, 2 ≤ k ∧ fresh base taken = numbered base k
        ∧ numbered base k ∉ taken ∧ ∀ j : Nat, 2 ≤ j → j < k → numbered base j ∈ taken := by
  rw [fresh]
  by_cases hbase : base ∈ taken
  · obtain ⟨n, hfirst, hbefore, hfree⟩ := firstFree_spec base taken 2
    rw [if_pos (List.contains_iff_mem.mpr hbase), hfirst]
    refine Or.inr ⟨hbase, 2 + n, by omega, rfl, hfree, fun j hj hlt => ?_⟩
    have hat := hbefore (j - 2) (by omega)
    rwa [Nat.add_sub_cancel' hj] at hat
  · rw [if_neg fun h => hbase (List.contains_iff_mem.mp h)]
    exact Or.inl ⟨hbase, rfl⟩

theorem fresh_not_mem (base : String) (taken : List String) : fresh base taken ∉ taken := by
  rcases fresh_cases base taken with ⟨hfree, hfresh⟩ | ⟨-, k, -, hfresh, hfree, -⟩
  · rwa [hfresh]
  · rwa [hfresh]

/-- A fresh id starts with its base. -/
theorem base_isPrefix_fresh (base : String) (taken : List String) :
    base.toList <+: (fresh base taken).toList := by
  rcases fresh_cases base taken with ⟨-, hfresh⟩ | ⟨-, k, -, hfresh, -⟩
  · exact (congrArg (base.toList <+: ·.toList) hfresh).mpr List.prefix_rfl
  · rw [hfresh, toList_numbered]
    exact List.prefix_append _ _

/-! ## Ids are words -/

theorem isWordChar_of_isSlugChar {c : Char} (h : isSlugChar c = true) : isWordChar c = true := by
  simp only [isSlugChar, Bool.or_eq_true] at h
  show (c.isUpper || c.isLower || c.isDigit || c == '_') = true
  simp only [Bool.or_eq_true]
  rcases h with (hlower | hdigit) | hline
  · exact Or.inl (Or.inl (Or.inr hlower))
  · exact Or.inl (Or.inr hdigit)
  · exact Or.inr hline

theorem isSlugChar_of_mem_slug {label : String} {limit : Int} {c : Char}
    (h : c ∈ (slug label limit).toList) : isSlugChar c = true := by
  rw [slug, String.toList_ofList, takeUpTo] at h
  split at h
  · exact (List.mem_filter.mp (List.mem_of_mem_take h)).2
  · exact (List.mem_filter.mp (List.mem_of_mem_take h)).2

theorem isWord_slug {label : String} {limit : Int} (h : (slug label limit).isEmpty = false) :
    IsWord (slug label limit).toList := by
  refine ⟨fun hnil => ?_, fun c hc => isWordChar_of_isSlugChar (isSlugChar_of_mem_slug hc)⟩
  rw [String.isEmpty_eq_false_iff] at h
  exact h (String.toList_inj.mp hnil)

theorem isWord_numbered {base : String} (h : IsWord base.toList) (k : Nat) :
    IsWord (numbered base k).toList := by
  rw [toList_numbered]
  refine ⟨by simp, fun c hc => ?_⟩
  rcases List.mem_append.mp hc with hbase | hcount
  · exact h.2 c hbase
  · rcases List.mem_cons.mp hcount with rfl | hdigit
    · rfl
    · simp [isWordChar, Char.isAlphanum, Nat.isDigit_of_mem_toDigits (by decide) (by decide) hdigit]

/-- What an id for a label starts with: the slug of the label, or the fallback with its place. -/
def labelBase (fallback label : String) (place : Nat) (limit : Int) : String :=
  let s := slug label limit
  if s.isEmpty then numbered fallback place else s

theorem forLabel_eq (fallback label : String) (place : Nat) (taken : List String) (limit : Int) :
    forLabel fallback label place taken limit
      = fresh (labelBase fallback label place limit) taken :=
  rfl

/-- Whatever a label is, the id that is made for it starts with a word. -/
theorem isWord_labelBase {fallback : String} (h : IsWord fallback.toList) (label : String)
    (place : Nat) (limit : Int) : IsWord (labelBase fallback label place limit).toList := by
  rw [labelBase]
  split
  · exact isWord_numbered h place
  · next hslug => exact isWord_slug (by simpa using hslug)

theorem isWord_fresh {base : String} (h : IsWord base.toList) (taken : List String) :
    IsWord (fresh base taken).toList := by
  rcases fresh_cases base taken with ⟨-, hfresh⟩ | ⟨-, k, -, hfresh, -⟩
  · rwa [hfresh]
  · rw [hfresh]
    exact isWord_numbered h k

/-- A word is not blank: no blank is a word character. -/
theorem not_blank_of_isWord {s : String} (h : IsWord s.toList) : isBlankText s = false := by
  rw [isBlankText, List.isEmpty_eq_false_iff]
  intro htrim
  obtain ⟨before, after, hbefore, hafter, hsplit⟩ := exists_trim s.toList
  -- a text that is trimmed to nothing is made of blanks
  rw [htrim, List.nil_append] at hsplit
  obtain ⟨c, hc⟩ := List.exists_mem_of_ne_nil _ h.1
  have hblank : isBlank c = true := by
    rw [hsplit] at hc
    rcases List.mem_append.mp hc with hc | hc
    · exact hbefore c hc
    · exact hafter c hc
  have hword := h.2 c hc
  rw [isWordChar_of_isBlank hblank] at hword
  cases hword

end Tariff.Identifier

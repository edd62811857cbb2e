import Mathlib.Data.List.Perm.Basic
import Tariff.OrderedMap

/-!
# Ordered maps as lists of entries

Giving a key a value changes what is found under that key and nothing else
(`find?_insert_self`, `find?_insert_of_ne`). A map that is made of entries with different keys is
those entries, in their order (`ofList_eq_self`), and each of them is found (`find?_of_mem`).

Two ways to change a whole map are followed here as well: something else under one key, or nothing
(`amend`), and other keys for all entries (`renamed`).
-/

namespace Tariff.OrderedMap

variable {α : Type u} {m : OrderedMap α} {key other : String} {value : α}

/-! ## Keys -/

theorem contains_iff : m.contains key = true ↔ key ∈ m.keys := by
  simp [contains, keys]

theorem contains_append_of_ne (h : other ≠ key) :
    contains (m ++ [(key, value)]) other = m.contains other := by
  show (m ++ [(key, value)]).any _ = m.any _
  rw [List.any_append, List.any_cons, List.any_nil, beq_false_of_ne (Ne.symm h), Bool.or_false,
    Bool.or_false]

theorem mem_keys_insert : other ∈ (m.insert key value).keys ↔ other = key ∨ other ∈ m.keys := by
  induction m with
  | nil => simp [insert, keys]
  | cons e m ih =>
    rw [insert]
    split
    · next heq => simp [keys, heq]
    · simp only [keys, List.map_cons, List.mem_cons] at ih ⊢
      rw [ih]
      exact or_left_comm

theorem keys_map {β : Type v} (f : β → String × α) (xs : List β) :
    keys (xs.map f) = xs.map fun x => (f x).1 := by
  rw [keys, List.map_map]
  rfl

theorem keys_flatMap {β : Type v} (f : β → OrderedMap α) (xs : List β) :
    keys (xs.flatMap f) = xs.flatMap fun x => (f x).keys := by
  rw [keys, List.map_flatMap]
  rfl

/-! ## What is found -/

theorem find?_cons {e : String × α} :
    OrderedMap.find? (e :: m) key = if key = e.1 then some e.2 else m.find? key := by
  rw [find?, List.lookup_cons]
  by_cases h : key = e.1
  · rw [if_pos h, beq_iff_eq.mpr h]
  · rw [if_neg h, beq_false_of_ne h]
    rfl

@[simp] theorem find?_insert_self : (m.insert key value).find? key = some value := by
  induction m with
  | nil => rw [insert, find?_cons, if_pos rfl]
  | cons e m ih =>
    rw [insert]
    split
    · rw [find?_cons, if_pos rfl]
    · next h => rw [find?_cons, if_neg (Ne.symm h), ih]

theorem find?_insert_of_ne (h : other ≠ key) :
    (m.insert key value).find? other = m.find? other := by
  induction m with
  | nil => rw [insert, find?_cons, if_neg h]
  | cons e m ih =>
    rw [insert]
    split
    · next heq => rw [find?_cons, find?_cons, if_neg h, heq, if_neg h]
    · rw [find?_cons, find?_cons, ih]

theorem mem_of_mem_insert {e : String × α} (h : e ∈ m.insert key value) :
    e = (key, value) ∨ e ∈ m := by
  induction m with
  | nil => exact Or.inl (List.mem_singleton.mp h)
  | cons f m ih =>
    rw [insert] at h
    split at h
    · rcases List.mem_cons.mp h with rfl | h
      · exact Or.inl rfl
      · exact Or.inr (List.mem_cons_of_mem f h)
    · rcases List.mem_cons.mp h with rfl | h
      · exact Or.inr List.mem_cons_self
      · exact (ih h).imp_right (List.mem_cons_of_mem f)

theorem mem_of_mem_insertAll {e : String × α} {entries : List (String × α)}
    (h : e ∈ m.insertAll entries) : e ∈ m ∨ e ∈ entries := by
  induction entries generalizing m with
  | nil => exact Or.inl h
  | cons f entries ih =>
    rcases ih h with hmem | hmem
    · rcases mem_of_mem_insert hmem with rfl | hmem
      · exact Or.inr List.mem_cons_self
      · exact Or.inl hmem
    · exact Or.inr (List.mem_cons_of_mem f hmem)

theorem mem_of_mem_ofList {e : String × α} {entries : List (String × α)} (h : e ∈ ofList entries) :
    e ∈ entries :=
  (mem_of_mem_insertAll h).resolve_left List.not_mem_nil

/-- What is found is an entry of the map. -/
theorem mem_of_find? (h : m.find? key = some value) : (key, value) ∈ m := by
  induction m with
  | nil => cases h
  | cons e m ih =>
    rw [find?_cons] at h
    split at h
    · next heq =>
      cases h
      rw [heq]
      exact List.mem_cons_self
    · exact List.mem_cons_of_mem _ (ih h)

/-- Where no two entries have one key, every entry is found. -/
theorem find?_of_mem (hkeys : m.keys.Nodup) (h : (key, value) ∈ m) :
    m.find? key = some value := by
  induction m with
  | nil => cases h
  | cons e m ih =>
    obtain ⟨hfresh, hrest⟩ := List.nodup_cons.mp hkeys
    rw [find?_cons]
    rcases List.mem_cons.mp h with rfl | hmem
    · rw [if_pos rfl]
    · have hkey : key ∈ keys m := List.mem_map.mpr ⟨(key, value), hmem, rfl⟩
      rw [if_neg (by rintro rfl; exact hfresh hkey), ih hrest hmem]

theorem isSome_find? : (m.find? key).isSome = m.contains key := by
  induction m with
  | nil => rfl
  | cons e m ih =>
    rw [find?_cons, contains, List.any_cons]
    by_cases h : key = e.1
    · rw [if_pos h, h, beq_self_eq_true]
      rfl
    · rw [if_neg h, beq_false_of_ne (Ne.symm h), Bool.false_or, ih]
      rfl

theorem contains_of_find?_eq_none (h : m.find? key = none) : m.contains key = false := by
  rw [← isSome_find?, h]
  rfl

theorem find?_eq_none_iff : m.find? key = none ↔ key ∉ m.keys := by
  rw [find?, List.lookup_eq_none_iff, keys]
  simp only [List.mem_map, not_exists, not_and, bne_iff_ne, ne_eq]
  exact ⟨fun h e he heq => h e he heq.symm, fun h e he heq => h e he heq.symm⟩

theorem find?_append {n : OrderedMap α} :
    OrderedMap.find? (m ++ n) key = (m.find? key).or (n.find? key) :=
  List.lookup_append

/-- Where entries are made of things with different keys, each thing has what it is given. -/
theorem find?_filterMap_of_mem {β : Type v} {name : β → String} {given? : β → Option α}
    {xs : List β} (hnames : (xs.map name).Nodup) {x : β} (hx : x ∈ xs) :
    OrderedMap.find? (xs.filterMap fun y => (given? y).map fun value => (name y, value)) (name x)
      = given? x := by
  induction xs with
  | nil => cases hx
  | cons y xs ih =>
    obtain ⟨hfresh, hrest⟩ := List.nodup_cons.mp hnames
    rw [List.filterMap_cons]
    rcases List.mem_cons.mp hx with rfl | hx
    · cases given? x with
      | some value => exact find?_cons.trans (if_pos rfl)
      | none =>
        refine find?_eq_none_iff.mpr fun hmem => hfresh ?_
        obtain ⟨e, he, hkey⟩ := List.mem_map.mp hmem
        obtain ⟨z, hz, hentry⟩ := List.mem_filterMap.mp he
        obtain ⟨value, -, rfl⟩ := Option.map_eq_some_iff.mp hentry
        exact List.mem_map.mpr ⟨z, hz, hkey⟩
    · have hne : name x ≠ name y := by
        intro heq
        exact hfresh (List.mem_map.mpr ⟨x, hx, heq⟩)
      rw [← ih hrest hx]
      cases given? y with
      | none => rfl
      | some value => exact find?_cons.trans (if_neg hne)

/-- Changing the values changes what is found. -/
theorem find?_map_entries {β : Type v} (f : String → α → β) :
    OrderedMap.find? (m.map fun e => (e.1, f e.1 e.2)) key = (m.find? key).map (f key) := by
  induction m with
  | nil => rfl
  | cons e m ih =>
    rw [List.map_cons, find?_cons, find?_cons, ih]
    split
    · next heq => rw [heq, Option.map_some]
    · rfl

theorem find?_map_values {β : Type v} (f : α → β) :
    OrderedMap.find? (m.map fun e => (e.1, f e.2)) key = (m.find? key).map f :=
  find?_map_entries fun _ => f

/-- The map with something else under a key that has a value, or without that key. -/
def amend (m : OrderedMap α) (key : String) (value? : Option α) : OrderedMap α :=
  m.filterMap fun e => if e.1 = key then value?.map fun value => (key, value) else some e

theorem amend_cons {e : String × α} {value? : Option α} :
    amend (e :: m) key value?
      = (if e.1 = key then (value?.map fun value => (key, value)).toList else [e])
        ++ m.amend key value? := by
  rw [amend, List.filterMap_cons]
  by_cases hkey : e.1 = key
  · rw [if_pos hkey, if_pos hkey]
    cases value? <;> rfl
  · rw [if_neg hkey, if_neg hkey]
    rfl

theorem find?_amend_of_ne {value? : Option α} (h : other ≠ key) :
    (m.amend key value?).find? other = m.find? other := by
  induction m with
  | nil => rfl
  | cons e m ih =>
    rw [amend_cons, find?_cons]
    by_cases hkey : e.1 = key
    · rw [if_pos hkey, hkey, if_neg h, ← ih]
      cases value? with
      | none => rfl
      | some value => exact find?_cons.trans (if_neg h)
    · rw [if_neg hkey, ← ih]
      exact find?_cons

theorem find?_amend_self {value? : Option α} :
    (m.amend key value?).find? key = (m.find? key).bind fun _ => value? := by
  induction m with
  | nil => rfl
  | cons e m ih =>
    rw [amend_cons, find?_cons]
    by_cases hkey : e.1 = key
    · rw [if_pos hkey, if_pos hkey.symm]
      cases value? with
      | none => exact ih.trans (Option.bind_fun_none _)
      | some value => exact find?_cons.trans (if_pos rfl)
    · rw [if_neg hkey, if_neg (Ne.symm hkey), ← ih]
      exact find?_cons.trans (if_neg (Ne.symm hkey))

/-- The order of the entries does not matter where no two of them have one key. -/
theorem find?_perm {n : OrderedMap α} (h : m.Perm n) (hkeys : m.keys.Nodup) (key : String) :
    m.find? key = n.find? key := by
  have hmem : key ∈ m.keys ↔ key ∈ n.keys := (h.map (·.1)).mem_iff
  cases hfound : n.find? key with
  | none =>
    rw [find?_eq_none_iff] at hfound ⊢
    rw [hmem]
    exact hfound
  | some value => exact find?_of_mem hkeys (h.mem_iff.mpr (mem_of_find? hfound))

/-! ## Other keys -/

/-- The map with other keys and other values. -/
def renamed {β : Type v} (r : String → String) (g : α → β) (m : OrderedMap α) : OrderedMap β :=
  m.map fun e => (r e.1, g e.2)

section Renamed

variable {β : Type v} {r : String → String} {g : α → β}

/-- What stands under a key is found under the new key, if no other key has become that one. -/
theorem find?_renamed (hkey : ∀ k ∈ m.keys, r k = r key → k = key) :
    (m.renamed r g).find? (r key) = (m.find? key).map g := by
  induction m with
  | nil => rfl
  | cons e m ih =>
    obtain ⟨hown, hrest⟩ := List.forall_mem_cons.mp hkey
    rw [renamed, List.map_cons, find?_cons, find?_cons]
    by_cases h : key = e.1
    · rw [if_pos h, if_pos (congrArg r h)]
      rfl
    · rw [if_neg h, if_neg fun heq => h (hown heq.symm).symm]
      exact ih hrest

theorem insert_renamed (g : α → β) (value : α) (hkey : ∀ k ∈ m.keys, r k = r key → k = key) :
    (m.renamed r g).insert (r key) (g value) = (m.insert key value).renamed r g := by
  induction m with
  | nil => rfl
  | cons e m ih =>
    obtain ⟨hown, hrest⟩ := List.forall_mem_cons.mp hkey
    rw [renamed, List.map_cons, insert, insert]
    by_cases h : e.1 = key
    · rw [if_pos h, if_pos (congrArg r h)]
      rfl
    · rw [if_neg h, if_neg fun heq => h (hown heq)]
      exact congrArg _ (ih hrest)

/-- The map with other keys. -/
def rekeyed (r : String → String) (m : OrderedMap α) : OrderedMap α :=
  m.renamed r fun value => value

theorem insert_rekeyed (value : α) (hkey : ∀ k ∈ m.keys, r k = r key → k = key) :
    (m.rekeyed r).insert (r key) value = (m.insert key value).rekeyed r :=
  insert_renamed _ value hkey

theorem find?_rekeyed (hkey : ∀ k ∈ m.keys, r k = r key → k = key) :
    (m.rekeyed r).find? (r key) = m.find? key := by
  rw [rekeyed, find?_renamed hkey]
  exact Option.map_id'

end Renamed

/-! ## Maps of entries -/

/-- A new key goes to the end. -/
theorem insert_of_not_mem (h : key ∉ m.keys) : m.insert key value = m ++ [(key, value)] := by
  induction m with
  | nil => rfl
  | cons e m ih =>
    obtain ⟨hne, hrest⟩ : key ≠ e.1 ∧ key ∉ keys m := by simpa [keys] using h
    rw [insert, if_neg (Ne.symm hne), ih hrest]
    rfl

/-- A known key stays where it is. -/
theorem keys_insert_of_mem (h : key ∈ m.keys) : (m.insert key value).keys = m.keys := by
  induction m with
  | nil => cases h
  | cons e m ih =>
    rw [insert]
    split
    · next heq => simp [keys, heq]
    · next hne =>
      have hrest : key ∈ keys m := (List.mem_cons.mp h).resolve_left (Ne.symm hne)
      exact congrArg (e.1 :: ·) (ih hrest)

theorem insertAll_eq_append {entries : List (String × α)} (h : (m ++ entries).keys.Nodup) :
    m.insertAll entries = m ++ entries := by
  unfold insertAll
  induction entries generalizing m with
  | nil => rw [List.append_nil]; rfl
  | cons e entries ih =>
    have hfresh : e.1 ∉ m.keys := by
      intro hmem
      rw [keys, List.map_append] at h
      exact (List.nodup_append.mp h).2.2 e.1 hmem e.1 (by simp) rfl
    have hsplit : m ++ e :: entries = m ++ [e] ++ entries := by simp
    rw [List.foldl_cons, insert_of_not_mem hfresh, hsplit]
    rw [hsplit] at h
    exact ih h

/-- A map of entries with different keys is these entries. -/
theorem ofList_eq_self {entries : List (String × α)} (h : (keys entries).Nodup) :
    ofList entries = entries :=
  insertAll_eq_append h

theorem find?_insertAll_of_not_mem {entries : List (String × α)} (h : key ∉ keys entries) :
    (m.insertAll entries).find? key = m.find? key := by
  unfold insertAll
  induction entries generalizing m with
  | nil => rfl
  | cons e entries ih =>
    obtain ⟨hne, hrest⟩ : key ≠ e.1 ∧ key ∉ keys entries := by simpa [keys] using h
    rw [List.foldl_cons, ih hrest, find?_insert_of_ne hne]

/-- **Of a repeated key the last value counts.** -/
theorem find?_ofList_of_last {before after : List (String × α)} (h : key ∉ keys after) :
    (ofList (before ++ (key, value) :: after)).find? key = some value := by
  rw [ofList, insertAll, List.foldl_append, List.foldl_cons]
  exact (find?_insertAll_of_not_mem h).trans find?_insert_self

end Tariff.OrderedMap

import Mathlib.Data.List.Nodup
import Tariff.Proofs.Batch
import Tariff.Proofs.Causality
import Tariff.Proofs.Choices
import Tariff.Proofs.Expression.Factor
import Tariff.Proofs.HiddenAnswers

/-!
# Options joined in one cell

A cell that lists options is cut at every mark, and what is cut off loses the blanks around it. So
options that are joined by the mark, with any blanks next to it, are read again as they were
(`listedOptions_of_joined`), whether there are many of them, one, or none.

Under an id a row gives what the last variable with that id makes of the cell
(`Answers.find?_entered_of_last`). The variables of a formula that was validated have different ids,
but nothing else keeps them apart: a formula that asks for several options, and then for a text
under the same id, takes the cell as a text.
-/

namespace Tariff

open Text (isBlank trim trimEnd Separator)
open Expression (IsBlanks)

/-! ## Cutting at a mark -/

namespace Text

section Cutting

variable {mark : Char} {part rest : List Char}

theorem Separator.split_of_not_mem (h : mark ∉ part) :
    Separator.split ⟨mark, []⟩ part = [part] := by
  induction part with
  | nil => rfl
  | cons c cs ih =>
    rw [List.mem_cons, not_or] at h
    have hcs : Separator.splitAfter ⟨mark, []⟩ 0 cs = [cs] := ih h.2
    rw [split, splitAfter, if_neg fun hc => h.1 hc.1.symm, hcs]

theorem Separator.split_append_mark (h : mark ∉ part) :
    Separator.split ⟨mark, []⟩ (part ++ mark :: rest)
      = part :: Separator.split ⟨mark, []⟩ rest := by
  induction part with
  | nil =>
    rw [List.nil_append, split, splitAfter, if_pos ⟨rfl, rfl⟩]
    rfl
  | cons c cs ih =>
    rw [List.mem_cons, not_or] at h
    have hcs : Separator.splitAfter ⟨mark, []⟩ 0 (cs ++ mark :: rest)
        = cs :: Separator.split ⟨mark, []⟩ rest := ih h.2
    rw [List.cons_append, split, splitAfter, if_neg fun hc => h.1 hc.1.symm, hcs]

/-- Parts that are joined by a mark none of them has are cut apart again. -/
theorem Separator.split_intercalate {parts : List (List Char)} (hne : parts ≠ [])
    (h : ∀ part ∈ parts, mark ∉ part) :
    Separator.split ⟨mark, []⟩ ([mark].intercalate parts) = parts := by
  induction parts with
  | nil => exact absurd rfl hne
  | cons part parts ih =>
    obtain ⟨hpart, hparts⟩ := List.forall_mem_cons.mp h
    cases parts with
    | nil =>
      rw [List.intercalate_singleton]
      exact split_of_not_mem hpart
    | cons next others =>
      rw [List.intercalate_cons_cons, List.append_assoc, List.singleton_append,
        split_append_mark hpart, ih (List.cons_ne_nil _ _) hparts]

end Cutting

/-! ## Cutting off blanks -/

theorem trimEnd_append {p : Char → Bool} {cs after : List Char} (h : ∀ c ∈ after, p c = true) :
    trimEnd p (cs ++ after) = trimEnd p cs := by
  induction cs with
  | nil => exact trimEnd_eq_nil h
  | cons c cs ih => rw [List.cons_append, trimEnd, trimEnd, ih]

/-- Blanks around a text are cut off with its own. -/
theorem trim_padded {before after : List Char} (hbefore : IsBlanks before) (hafter : IsBlanks after)
    (cs : List Char) : trim (before ++ (cs ++ after)) = trim cs := by
  rw [trim, List.dropWhile_append_of_pos hbefore, List.dropWhile_append]
  split
  · next hempty =>
    -- the text is nothing but blanks itself
    rw [trim, List.isEmpty_iff.mp hempty, ← List.append_nil after,
      List.dropWhile_append_of_pos hafter]
    rfl
  · exact trimEnd_append hafter

/-- A text that starts and ends with something else than a blank stays as it is. -/
theorem trim_eq_self_of_ends {cs : List Char} (hfirst : cs.head?.any isBlank = false)
    (hlast : cs.getLast?.any isBlank = false) : trim cs = cs := by
  obtain ⟨before, after, hbefore, hafter, hsplit⟩ := exists_trim cs
  have hnone : before = [] := by
    cases before with
    | nil => rfl
    | cons b bs =>
      have hb : isBlank b = false := by
        rw [hsplit] at hfirst
        exact hfirst
      rw [hbefore b List.mem_cons_self] at hb
      cases hb
  have hrest : after = [] := by
    rcases List.eq_nil_or_concat' after with rfl | ⟨bs, b, rfl⟩
    · rfl
    · have hb : isBlank b = false := by
        rw [hsplit, ← List.append_assoc, ← List.append_assoc, List.getLast?_concat] at hlast
        exact hlast
      rw [hafter b List.mem_concat_self] at hb
      cases hb
  rw [hnone, hrest, List.nil_append, List.append_nil] at hsplit
  exact hsplit.symm

end Text

/-! ## Joined options -/

/-- An option that can stand in a list: it is not blank, has no blanks at its ends and does not have
the mark between options. -/
structure IsListable (mark : Char) (o : String) : Prop where
  nonempty : o.toList ≠ []
  first : o.toList.head?.any isBlank = false
  last : o.toList.getLast?.any isBlank = false
  unmarked : mark ∉ o.toList

/-- An option with blanks around it. -/
def IsPadded (o : String) (part : List Char) : Prop :=
  ∃ before after, IsBlanks before ∧ IsBlanks after ∧ part = before ++ (o.toList ++ after)

/-- Options in their order, with the mark and any blanks between them. -/
def JoinedBy (mark : Char) (options : List String) (s : String) : Prop :=
  ∃ parts, List.Forall₂ IsPadded options parts ∧ s.toList = [mark].intercalate parts

section Options

variable {mark : Char} {o s : String} {options : List String} {part : List Char}

theorem IsListable.trim_of_padded (h : IsListable mark o) (hpart : IsPadded o part) :
    trim part = o.toList := by
  obtain ⟨before, after, hbefore, hafter, rfl⟩ := hpart
  rw [Text.trim_padded hbefore hafter, Text.trim_eq_self_of_ends h.first h.last]

theorem IsListable.not_mem_of_padded (hmark : isBlank mark = false) (h : IsListable mark o)
    (hpart : IsPadded o part) : mark ∉ part := by
  obtain ⟨before, after, hbefore, hafter, rfl⟩ := hpart
  -- the mark is not a blank, so it is not one of those around the option
  have hblanks : ∀ bs, IsBlanks bs → mark ∉ bs := by
    intro bs hbs hmem
    rw [hbs mark hmem] at hmark
    cases hmark
  rw [List.mem_append, List.mem_append, not_or, not_or]
  exact ⟨hblanks before hbefore, h.unmarked, hblanks after hafter⟩

theorem map_trim_of_padded {parts : List (List Char)} (hoptions : ∀ o ∈ options, IsListable mark o)
    (hparts : List.Forall₂ IsPadded options parts) :
    parts.map trim = options.map String.toList := by
  induction hparts with
  | nil => rfl
  | cons hpart _ ih =>
    obtain ⟨hown, hrest⟩ := List.forall_mem_cons.mp hoptions
    rw [List.map_cons, List.map_cons, hown.trim_of_padded hpart, ih hrest]

theorem not_mem_of_padded {parts : List (List Char)} (hmark : isBlank mark = false)
    (hoptions : ∀ o ∈ options, IsListable mark o)
    (hparts : List.Forall₂ IsPadded options parts) : ∀ part ∈ parts, mark ∉ part := by
  induction hparts with
  | nil => exact fun part hpart => nomatch hpart
  | cons hpart _ ih =>
    obtain ⟨hown, hrest⟩ := List.forall_mem_cons.mp hoptions
    exact List.forall_mem_cons.mpr ⟨hown.not_mem_of_padded hmark hpart, ih hrest⟩

/-- **Options that are joined are read again.** -/
theorem listedOptions_of_joined (hmark : isBlank mark = false)
    (hoptions : ∀ o ∈ options, IsListable mark o) (hjoined : JoinedBy mark options s) :
    listedOptions ⟨mark, []⟩ s = options := by
  obtain ⟨parts, hparts, hs⟩ := hjoined
  rcases List.eq_nil_or_concat' parts with rfl | hsome
  · -- no options are an empty text, which has one part that is blank
    cases hparts
    rw [listedOptions, hs]
    rfl
  · have hne : parts ≠ [] := by
      obtain ⟨_, _, rfl⟩ := hsome
      exact List.append_ne_nil_of_right_ne_nil _ (List.cons_ne_nil _ _)
    have hsplit : Separator.split ⟨mark, []⟩ s.toList = parts := by
      rw [hs, Text.Separator.split_intercalate hne (not_mem_of_padded hmark hoptions hparts)]
    have hkept : ∀ cs ∈ options.map String.toList, (!cs.isEmpty) = true := by
      intro cs hcs
      obtain ⟨o, ho, rfl⟩ := List.mem_map.mp hcs
      simpa using (hoptions o ho).nonempty
    rw [listedOptions, hsplit, map_trim_of_padded hoptions hparts, List.filter_eq_self.mpr hkept,
      List.map_map]
    exact (List.map_congr_left fun o _ => String.ofList_toList).trans (List.map_id _)

end Options

/-! ## What a row answers -/

/-- The answer that a row gives to a variable. -/
def Variable.answerIn? (v : Variable) (separator : Separator) (row : OrderedMap Value) :
    Option Value :=
  (row.find? v.id).bind fun cell => (v.cellAnswer? (some separator) cell).toOption.join

/-- Answers with the one that a row gives to a variable. -/
def Answers.enter (separator : Separator) (row : OrderedMap Value) (answers : Answers)
    (v : Variable) : Answers :=
  match v.answerIn? separator row with
  | none => answers
  | some answer => answers.insert v.id answer

section Rows

variable {separator : Separator} {row first second : OrderedMap Value} {answers others : Answers}
  {questions before after : List Variable} {v last : Variable} {key id : String}

theorem Formula.rowAnswers_eq (f : Formula) (separator : Separator) (row : OrderedMap Value) :
    f.rowAnswers (some separator) row
      = .ok (f.questions.foldl (Answers.enter separator row) []) := by
  refine (foldlM_eq_ok_iff_foldl (p := fun _ => True) fun answers v entered => ?_).mpr
    ⟨fun _ _ => trivial, rfl⟩
  rw [Answers.enter, Variable.answerIn?, true_and]
  cases row.find? v.id with
  | none => exact Iff.of_eq (Except.ok.injEq _ _)
  | some cell =>
    obtain ⟨answer?, hcell⟩ := v.exists_cellAnswer? separator cell
    simp only [hcell, Option.bind_some]
    cases answer? <;> exact Iff.of_eq (Except.ok.injEq _ _)

/-- One variable enters its own answer and leaves the others. -/
theorem Answers.find?_enter : (answers.enter separator row v).find? key
    = if key = v.id then (v.answerIn? separator row).or (answers.find? key)
      else answers.find? key := by
  rw [enter]
  split
  · next hnone => rw [hnone, Option.none_or, ite_self]
  · next answer hanswer =>
    rw [hanswer, Option.some_or]
    split
    · next hkey => rw [hkey, OrderedMap.find?_insert_self]
    · next hkey => exact OrderedMap.find?_insert_of_ne hkey

theorem Answers.find?_entered_of_not_mem (h : key ∉ questions.map (·.id)) :
    (questions.foldl (Answers.enter separator row) answers).find? key = answers.find? key := by
  induction questions generalizing answers with
  | nil => rfl
  | cons v questions ih =>
    rw [List.map_cons, List.mem_cons, not_or] at h
    rw [List.foldl_cons, ih h.2, find?_enter, if_neg h.1]

/-- **What counts under an id is the answer to its last variable.** -/
theorem Answers.find?_entered_of_last {answer : Value} (hafter : last.id ∉ after.map (·.id))
    (hanswer : last.answerIn? separator row = some answer) :
    ((before ++ last :: after).foldl (Answers.enter separator row) answers).find? last.id
      = some answer := by
  rw [List.foldl_append, List.foldl_cons, find?_entered_of_not_mem hafter, find?_enter, if_pos rfl,
    hanswer, Option.some_or]

/-- Rows that differ under one key give answers that differ under that key. -/
theorem Answers.find?_entered_congr (hrows : ∀ key, key ≠ id → first.find? key = second.find? key)
    (hanswers : ∀ key, key ≠ id → answers.find? key = others.find? key) (hkey : key ≠ id) :
    (questions.foldl (Answers.enter separator first) answers).find? key
      = (questions.foldl (Answers.enter separator second) others).find? key := by
  induction questions generalizing answers others with
  | nil => exact hanswers key hkey
  | cons v questions ih =>
    refine ih fun other hother => ?_
    rw [find?_enter, find?_enter, hanswers other hother]
    split
    · next heq =>
      -- the row gives this variable its own answer, under a key that is the same in both
      rw [Variable.answerIn?, Variable.answerIn?, hrows v.id (heq ▸ hother)]
    · rfl

end Rows

/-! ## Cells with joined options -/

theorem Variable.cellAnswer?_text (v : Variable) (separator : Separator) (s : String) :
    v.cellAnswer? (some separator) (.text s)
      = .ok (some (if v.isMultiSelect then .list ((listedOptions separator s).map .text)
        else .text s)) := by
  cases hseveral : v.isMultiSelect <;> simp [cellAnswer?, Table.isBlankCell, hseveral, Value.plain]

/-- The variable that counts for an id. -/
def Formula.lastWithId? (f : Formula) (id : String) : Option Variable :=
  f.questions.reverse.find? (·.id == id)

namespace Formula

variable {f : Formula} {v last : Variable} {id : String}

theorem split_of_lastWithId? (h : f.lastWithId? id = some last) :
    last.id = id ∧ ∃ before after, f.questions = before ++ last :: after
      ∧ id ∉ after.map (·.id) :=
  split_of_find?_reverse h

theorem exists_lastWithId? (hv : v ∈ f.questions) : ∃ last, f.lastWithId? v.id = some last :=
  Option.isSome_iff_exists.mp
    (List.find?_isSome.mpr ⟨v, List.mem_reverse.mpr hv, beq_self_eq_true v.id⟩)

/-- In a formula whose variables have different ids, each of them counts for its own. -/
theorem lastWithId?_of_nodup (hids : (f.questions.map (·.id)).Nodup) (hv : v ∈ f.questions) :
    f.lastWithId? v.id = some v :=
  find?_reverse_of_nodup hids hv

/-- The way to a price reads the answers by their ids. -/
theorem calculate_congr {first second : Answers}
    (h : ∀ id, first.find? id = second.find? id) (depth : Nat) :
    f.calculate first depth = f.calculate second depth := by
  refine calculate_eq_of_resolve ?_ depth
  rw [resolve_eq_run, resolve_eq_run, Resolution.run_congr_answers fun v _ => h v.id]

theorem rowOutcome_congr {first second : Answers}
    (h : ∀ id, first.find? id = second.find? id) (depth : Nat) :
    f.rowOutcome first depth = f.rowOutcome second depth := by
  rw [rowOutcome, calculate_congr h, rowOutcome]

/-- **A cell gives the options that are joined in it.** What a row answers under the id of a
variable is the list of these options exactly if the last variable with that id may have several,
and then the row is priced as if the list had been given along with the other answers. -/
theorem joined_cell_is_read {mark : Char} {options : List String} {cell : String}
    {row : OrderedMap Value} (hv : v ∈ f.questions) (hmark : isBlank mark = false)
    (hoptions : ∀ o ∈ options, IsListable mark o) (hjoined : JoinedBy mark options cell)
    (hcell : row.find? v.id = some (.text cell)) :
    ∃ last answers others, f.lastWithId? v.id = some last
      ∧ f.rowAnswers (some ⟨mark, []⟩) row = .ok answers
      ∧ f.rowAnswers (some ⟨mark, []⟩) (row.amend v.id none) = .ok others
      ∧ (answers.find? v.id = some (.list (options.map .text)) ↔ last.isMultiSelect = true)
      ∧ (last.isMultiSelect = true → ∀ depth,
        f.calculate answers depth
            = f.calculate (others.insert v.id (.list (options.map .text))) depth
          ∧ f.pricedRow (some ⟨mark, []⟩) depth row
            = f.rowOutcome (others.insert v.id (.list (options.map .text))) depth) := by
  obtain ⟨last, hlast⟩ := exists_lastWithId? hv
  obtain ⟨hid, before, after, hquestions, hafter⟩ := split_of_lastWithId? hlast
  have hread : last.answerIn? ⟨mark, []⟩ row
      = some (if last.isMultiSelect then .list (options.map .text) else .text cell) := by
    rw [Variable.answerIn?, hid, hcell, Option.bind_some, Variable.cellAnswer?_text,
      listedOptions_of_joined hmark hoptions hjoined]
    rfl
  have hown : (f.questions.foldl (Answers.enter ⟨mark, []⟩ row) []).find? v.id
      = some (if last.isMultiSelect then .list (options.map .text) else .text cell) := by
    rw [hquestions, ← hid]
    exact Answers.find?_entered_of_last (hid ▸ hafter) hread
  refine ⟨last, _, _, hlast, f.rowAnswers_eq _ _, f.rowAnswers_eq _ _, ?_,
    fun hseveral depth => ?_⟩
  · rw [hown]
    cases last.isMultiSelect <;> simp
  · have hagree : ∀ key, (f.questions.foldl (Answers.enter ⟨mark, []⟩ row) []).find? key
        = ((f.questions.foldl (Answers.enter ⟨mark, []⟩ (row.amend v.id none)) []).insert v.id
          (.list (options.map .text))).find? key := by
      intro key
      by_cases hkey : key = v.id
      · rw [hkey, hown, if_pos hseveral, OrderedMap.find?_insert_self]
      · rw [OrderedMap.find?_insert_of_ne hkey]
        exact Answers.find?_entered_congr
          (fun other hother => (OrderedMap.find?_amend_of_ne hother).symm) (fun _ _ => rfl) hkey
    refine ⟨calculate_congr hagree depth, ?_⟩
    rw [pricedRow, f.rowAnswers_eq]
    exact rowOutcome_congr hagree depth

/-- The extras of a fence can be joined. -/
theorem isListable_extras : ∀ o ∈ ["gate", "paint"], IsListable '|' o :=
  List.forall_mem_cons.mpr ⟨⟨by decide, by decide, by decide, by decide⟩,
    List.forall_mem_singleton.mpr ⟨by decide, by decide, by decide, by decide⟩⟩

/-- A fence of ten with both extras costs what it costs when they are chosen from a list. -/
theorem joined_cell_is_read_fence :
    let row : OrderedMap Value := [("length", .int 10), ("extra", .text " gate |\tpaint")]
    JoinedBy '|' ["gate", "paint"] " gate |\tpaint"
      ∧ ∀ depth, Sample.fence.pricedRow (some defaultSeparator) depth row
        = Sample.fence.rowOutcome
          [("length", .int 10), ("extra", .list [.text "gate", .text "paint"])] depth := by
  intro row
  have hv : Sample.extras ∈ Sample.fence.questions := .tail _ (.head _)
  have hjoined : JoinedBy '|' ["gate", "paint"] " gate |\tpaint" :=
    ⟨[" gate ".toList, "\tpaint".toList],
      .cons ⟨[' '], [' '], by decide, by decide, rfl⟩
        (.cons ⟨['\t'], [], by decide, by decide, rfl⟩ .nil), rfl⟩
  obtain ⟨last, answers, others, hlast, -, hothers, -, hpriced⟩ :=
    joined_cell_is_read hv (by decide) isListable_extras hjoined (rfl : row.find? "extra" = _)
  refine ⟨hjoined, fun depth => ?_⟩
  rw [lastWithId?_of_nodup (by decide) hv] at hlast
  cases hlast
  cases hothers
  exact (hpriced rfl depth).2

/-- **A later text takes the cell.** Several extras may be chosen, but a note is asked for under the
same id: then the row answers the cell as it is written, and nothing is chosen. -/
theorem joined_cell_unread :
    let several := { Sample.extras with rule? := none }
    let note := { Sample.count "extra" with kind := .text }
    let f := Sample.priced "extra_gate + extra_paint" [several, note]
    let row : OrderedMap Value := [("extra", .text "gate|paint")]
    several ∈ f.questions ∧ several.isMultiSelect = true ∧ isBlank '|' = false
      ∧ (∀ o ∈ ["gate", "paint"], IsListable '|' o) ∧ JoinedBy '|' ["gate", "paint"] "gate|paint"
      ∧ row.find? several.id = some (.text "gate|paint")
      ∧ (∃ answers, f.rowAnswers (some ⟨'|', []⟩) row = .ok answers
        ∧ answers.find? several.id ≠ some (.list [.text "gate", .text "paint"]))
      ∧ f.pricedRow (some ⟨'|', []⟩) defaultDepth row = .ok (.priced 0
        ["Could not coerce ['gate|paint'] for 'extra': no matching option"])
      ∧ f.rowOutcome [("extra", .list [.text "gate", .text "paint"])] defaultDepth
        = .ok (.priced 155 []) := by
  intro several note f row
  have hjoined : JoinedBy '|' ["gate", "paint"] "gate|paint" :=
    ⟨["gate".toList, "paint".toList], .cons ⟨[], [], by decide, by decide, rfl⟩
      (.cons ⟨[], [], by decide, by decide, rfl⟩ .nil), rfl⟩
  refine ⟨.head _, rfl, by decide, isListable_extras, hjoined, rfl, ⟨_, rfl, nofun⟩, ?_, ?_⟩
  · decide +kernel
  · decide +kernel

end Formula

end Tariff

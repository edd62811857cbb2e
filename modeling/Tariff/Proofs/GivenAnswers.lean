import Tariff.Proofs.Fallbacks

/-!
# No answer is dropped

An answer that says nothing counts as none (`Variable.contributions_of_isEmpty`). Any other one
leaves a trace: it is counted, as the number that it states or as the options whose text it has, or
it is reported.

A question with several choices takes every entry of a list by itself (`Answer.entries`). It reports
exactly the entries that have the text of no option (`Variable.reported_iff`). Every other entry has
the text of an option, but options with one id share a token, for which the last of them counts
(`Variable.countsByAnswer_of_last`): an entry that has the text of an earlier one only goes
unnoticed. What keeps ids from being repeated is the check of a variable, which coercion does not
run.
-/

namespace Tariff

/-- What an answer says: of a list the entries that say something, and else the answer itself, if it
says something. -/
def Answer.entries : Value → List Value
  | .list items => items.filter fun i => !isEmpty i
  | answer => if isEmpty answer then [] else [answer]

/-- Whether an entry has a text of an option, that of its value or its id. -/
def Choice.Matches (o : Choice) (entry : Value) : Prop :=
  o.value.plain = entry.plain ∨ o.id = entry.plain

/-- Whether an issue reports an entry of an answer as one that matches no option. -/
def CoercionIssue.Reports (i : CoercionIssue) (entry : Value) : Prop :=
  i.misfit = .noMatchingOption
    ∧ ∃ texts : List String, i.answer = .list (texts.map .text) ∧ entry.plain ∈ texts

namespace Answer

variable {answer : Value} {s : String}

theorem mem_selection_iff : s ∈ selection answer ↔ ∃ entry ∈ entries answer, entry.plain = s := by
  have hone : ∀ a : Value, s ∈ (if isEmpty a then [] else [a.plain])
      ↔ ∃ entry ∈ (if isEmpty a then [] else [a]), entry.plain = s := by
    intro a
    cases isEmpty a <;> simp [eq_comm]
  cases answer with
  | list items =>
    simp only [mem_selection_list, entries, List.mem_filter, Bool.not_eq_true', and_assoc]
  | _ => exact hone _

theorem mem_sortTexts {xs : List String} : s ∈ sortTexts xs ↔ s ∈ xs :=
  List.mem_mergeSort

end Answer

namespace Variable

variable {v : Variable} {answer : Value} {o : Choice}

theorem choiceNamed?_plain_eq_none_iff {entry : Value} :
    v.choiceNamed? entry.plain = none ↔ ∀ o ∈ v.choices, ¬ o.Matches entry := by
  simp only [choiceNamed?_eq_none_iff, Choice.Matches, not_or, ne_eq]

/-! ## One number, one option -/

/-- **A number is read or reported.** -/
theorem number_read_or_reported (hkind : v.kind.isNumeric = true)
    (hgiven : Answer.isEmpty answer = false) :
    (∃ n, Answer.number? answer = some n ∧ v.contributions answer = v.contributing (.number n) [])
      ∨ (Answer.number? answer = none
        ∧ v.contributions answer
          = v.contributing (.number .zero) [⟨v.id, answer, .notANumber⟩]) := by
  cases hn : Answer.number? answer with
  | some n => exact .inl ⟨n, rfl, contributions_of_number? hkind hn⟩
  | none =>
    refine .inr ⟨rfl, ?_⟩
    rw [contributions_eq_numericContribution hkind, numericContribution, if_neg (by simp [hgiven]),
      hn]

theorem contributions_eq_choiceContribution (hkind : v.kind = .dropdown ∨ v.kind = .select)
    (answer : Value) : v.contributions answer = v.choiceContribution v.amountOf answer [] := by
  rcases hkind with hkind | hkind
  · have hamount : v.amountOf = Choice.number := funext fun o => by simp [amountOf, hkind]
    unfold contributions
    rw [hkind, hamount]
  · have hamount : v.amountOf = Choice.amount := funext fun o => by simp [amountOf, hkind]
    unfold contributions
    rw [hkind, hamount]

/-- **One option is chosen or the answer is reported**, even if it is a list or a record. -/
theorem option_chosen_or_reported (hkind : v.kind = .dropdown ∨ v.kind = .select)
    (hgiven : Answer.isEmpty answer = false) :
    (∃ o ∈ v.choices, o.Matches answer
        ∧ v.contributions answer = v.contributing (.number (v.amountOf o)) [])
      ∨ ((∀ o ∈ v.choices, ¬ o.Matches answer)
        ∧ v.contributions answer
          = v.contributing (.number .zero) [⟨v.id, answer, .noMatchingOption⟩]) := by
  rw [contributions_eq_choiceContribution hkind, choiceContribution, if_neg (by simp [hgiven]),
    choiceFor?_of_not_isEmpty hgiven]
  cases hnamed : v.choiceNamed? answer.plain with
  | some o =>
    exact .inl ⟨o, mem_choices_of_choiceNamed? hnamed, eq_of_choiceNamed? hnamed, rfl⟩
  | none => exact .inr ⟨choiceNamed?_plain_eq_none_iff.mp hnamed, rfl⟩

/-! ## Entries that are reported -/

theorem mem_unknownTexts_iff {s : String} :
    s ∈ v.unknownTexts answer
      ↔ s ∈ Answer.selection answer ∧ ∀ o ∈ v.choices, ¬ (o.value.plain = s ∨ o.id = s) := by
  simp [unknownTexts, List.mem_filter]

section Several

variable (hmulti : v.isMultiSelect = true)
include hmulti

/-- **An entry is reported exactly if it matches no option.** -/
theorem reported_iff {entry : Value} (hentry : entry ∈ Answer.entries answer) :
    (∃ i ∈ (v.contributions answer).issues, i.Reports entry)
      ↔ ∀ o ∈ v.choices, ¬ o.Matches entry := by
  have hselected := Answer.mem_selection_iff.mpr ⟨entry, hentry, rfl⟩
  have hunknown : entry.plain ∈ v.unknownTexts answer ↔ ∀ o ∈ v.choices, ¬ o.Matches entry :=
    mem_unknownTexts_iff.trans (and_iff_right hselected)
  rw [← hunknown, contributions_eq_selectionContributions hmulti, issues_selectionContributions]
  constructor
  · rintro ⟨i, hi, -, texts, htexts, hin⟩
    split at hi
    · cases hi
    · -- there is one issue, and its texts are those that match nothing
      obtain rfl := List.mem_singleton.mp hi
      obtain rfl := List.map_injective_iff.mpr (fun _ _ => Value.text.inj) (Value.list.inj htexts)
      exact Answer.mem_sortTexts.mp hin
  · intro hin
    rw [if_neg fun hnone => List.ne_nil_of_mem hin (List.isEmpty_iff.mp hnone)]
    exact ⟨_, List.mem_singleton_self _, rfl, _, rfl, Answer.mem_sortTexts.mpr hin⟩

theorem issues_eq_nil_of_matched
    (hall : ∀ entry ∈ Answer.entries answer, ∃ o ∈ v.choices, o.Matches entry) :
    (v.contributions answer).issues = [] := by
  refine issues_contributions_of_isMultiSelect hmulti fun s hs => ?_
  obtain ⟨entry, hentry, rfl⟩ := Answer.mem_selection_iff.mp hs
  obtain ⟨o, ho, hmatches⟩ := hall entry hentry
  refine Option.isSome_iff_ne_none.mpr fun hnone => ?_
  exact choiceNamed?_plain_eq_none_iff.mp hnone o ho hmatches

end Several

/-! ## Options that are counted -/

/-- The option that counts for an id, and so for the token of all options with this id. -/
def lastChoice? (v : Variable) (id : String) : Option Choice :=
  v.choices.reverse.find? (·.id == id)

/-- Whether an option contributes by whether the answer gives it. -/
def CountsByAnswer (v : Variable) (answer : Value) (o : Choice) : Prop :=
  ((∃ entry ∈ Answer.entries answer, o.Matches entry) →
      (v.contributions answer).contributions.find? (v.choiceToken o) = some (.number o.number))
    ∧ ((∀ entry ∈ Answer.entries answer, ¬ o.Matches entry) →
      (v.contributions answer).contributions.find? (v.choiceToken o) = some (.number o.unselected))

theorem isIn_selection_iff :
    o.isIn (Answer.selection answer) = true
      ↔ ∃ entry ∈ Answer.entries answer, o.Matches entry := by
  rw [isIn_iff, Answer.mem_selection_iff, Answer.mem_selection_iff]
  constructor
  · rintro (⟨entry, hentry, heq⟩ | ⟨entry, hentry, heq⟩)
    · exact ⟨entry, hentry, .inl heq.symm⟩
    · exact ⟨entry, hentry, .inr heq.symm⟩
  · rintro ⟨entry, hentry, heq | heq⟩
    · exact .inl ⟨entry, hentry, heq.symm⟩
    · exact .inr ⟨entry, hentry, heq.symm⟩

section Several

variable (hmulti : v.isMultiSelect = true)
include hmulti

/-- **The last option with an id counts for its token.** -/
theorem countsByAnswer_of_last (hlast : v.lastChoice? o.id = some o) :
    v.CountsByAnswer answer o := by
  obtain ⟨-, before, after, hsplit, hafter⟩ := split_of_find?_reverse hlast
  have hfound : (v.contributions answer).contributions.find? (v.choiceToken o)
      = some (.number (if o.isIn (Answer.selection answer) then o.number else o.unselected)) := by
    rw [contributions_eq_selectionContributions hmulti, contributions_selectionContributions,
      choiceContributions, hsplit, List.map_append, List.map_cons]
    -- a later option with this token would have this id
    refine OrderedMap.find?_ofList_of_last fun htoken => hafter ?_
    rw [OrderedMap.keys_map] at htoken
    obtain ⟨p, hp, heq⟩ := List.mem_map.mp htoken
    exact List.mem_map.mpr ⟨p, hp, choiceToken_inj heq⟩
  constructor
  · intro hgiven
    rw [hfound, if_pos (isIn_selection_iff.mpr hgiven)]
  · intro hnone
    rw [hfound, if_neg fun hin => ?_]
    obtain ⟨entry, hentry, hmatches⟩ := isIn_selection_iff.mp hin
    exact hnone entry hentry hmatches

/-- **Where no id is repeated, every entry is counted or reported.** -/
theorem entry_counted_or_reported (hids : (v.choices.map (·.id)).Nodup) {entry : Value}
    (hentry : entry ∈ Answer.entries answer) :
    (∃ o ∈ v.choices, o.Matches entry
        ∧ (v.contributions answer).contributions.find? (v.choiceToken o) = some (.number o.number))
      ∨ ∃ i ∈ (v.contributions answer).issues, i.Reports entry := by
  by_cases hmatched : ∃ o ∈ v.choices, o.Matches entry
  · obtain ⟨o, ho, hmatches⟩ := hmatched
    have hcounts : v.CountsByAnswer answer o :=
      countsByAnswer_of_last hmulti (find?_reverse_of_nodup hids ho)
    exact .inl ⟨o, ho, hmatches, hcounts.1 ⟨entry, hentry, hmatches⟩⟩
  · exact .inr ((reported_iff hmulti hentry).mpr fun o ho hmatches => hmatched ⟨o, ho, hmatches⟩)

end Several

/-- **No answer is dropped.** One that says nothing counts as none and is not reported, whatever is
asked. Any other answer is read as a number or reported where a number is asked for, and chooses an
option or is reported where one is. Where several options may be chosen, exactly the entries that
match none are reported, the last option with an id contributes by whether an entry matches it, and
so every entry is counted or reported as long as no id is repeated. -/
theorem answer_counted_or_reported (v : Variable) (answer : Value) :
    (Answer.isEmpty answer = true →
        v.contributions answer = v.contributions .null ∧ (v.contributions answer).issues = [])
      ∧ (Answer.isEmpty answer = false → v.kind.isNumeric = true →
        (∃ n, Answer.number? answer = some n
            ∧ v.contributions answer = v.contributing (.number n) [])
          ∨ (Answer.number? answer = none
            ∧ v.contributions answer
              = v.contributing (.number .zero) [⟨v.id, answer, .notANumber⟩]))
      ∧ (Answer.isEmpty answer = false → v.kind = .dropdown ∨ v.kind = .select →
        (∃ o ∈ v.choices, o.Matches answer
            ∧ v.contributions answer = v.contributing (.number (v.amountOf o)) [])
          ∨ ((∀ o ∈ v.choices, ¬ o.Matches answer)
            ∧ v.contributions answer
              = v.contributing (.number .zero) [⟨v.id, answer, .noMatchingOption⟩]))
      ∧ (v.isMultiSelect = true →
        (∀ entry ∈ Answer.entries answer,
            (∃ i ∈ (v.contributions answer).issues, i.Reports entry)
              ↔ ∀ o ∈ v.choices, ¬ o.Matches entry)
          ∧ ((∀ entry ∈ Answer.entries answer, ∃ o ∈ v.choices, o.Matches entry) →
            (v.contributions answer).issues = [])
          ∧ (∀ o, v.lastChoice? o.id = some o → v.CountsByAnswer answer o)
          ∧ ((v.choices.map (·.id)).Nodup → ∀ entry ∈ Answer.entries answer,
            (∃ o ∈ v.choices, o.Matches entry
                ∧ (v.contributions answer).contributions.find? (v.choiceToken o)
                  = some (.number o.number))
              ∨ ∃ i ∈ (v.contributions answer).issues, i.Reports entry)) := by
  refine ⟨fun hempty => ⟨contributions_of_isEmpty hempty, issues_contributions_of_isEmpty hempty⟩,
    fun hgiven hkind => number_read_or_reported hkind hgiven,
    fun hgiven hkind => option_chosen_or_reported hkind hgiven, fun hmulti => ?_⟩
  exact ⟨fun entry hentry => reported_iff hmulti hentry, issues_eq_nil_of_matched hmulti,
    fun o hlast => countsByAnswer_of_last hmulti hlast,
    fun hids entry hentry => entry_counted_or_reported hmulti hids hentry⟩

/-- A gate is counted next to a moat, which nobody offers and which is reported. Where one option is
asked for, a list of one is reported. -/
theorem answer_counted_or_reported_extras :
    let answer := Value.list [.text "gate", .text " ", .text "moat"]
    Sample.extras.contributions (.text " ") = Sample.extras.contributions .null
      ∧ (∃ n, Sample.length.contributions (.bool true) = Sample.length.contributing (.number n) [])
      ∧ (Sample.numbered.contributions (.list [.text "2"])).issues
        = [⟨"coats", .list [.text "2"], .noMatchingOption⟩]
      ∧ (∃ i ∈ (Sample.extras.contributions answer).issues, i.Reports (.text "moat"))
      ∧ (Sample.extras.contributions answer).contributions.find? "extra_gate"
        = some (.number (.whole 120))
      ∧ ∀ entry ∈ Answer.entries answer,
        (∃ o ∈ Sample.extras.choices, o.Matches entry
            ∧ (Sample.extras.contributions answer).contributions.find? (Sample.extras.choiceToken o)
              = some (.number o.number))
          ∨ ∃ i ∈ (Sample.extras.contributions answer).issues, i.Reports entry := by
  intro answer
  have hentries : Answer.entries answer = [.text "gate", .text "moat"] := rfl
  have hmoat : ∀ o ∈ Sample.extras.choices, ¬ o.Matches (.text "moat") := by
    unfold Choice.Matches
    decide
  have hlist : ¬ ∃ o ∈ Sample.numbered.choices, o.Matches (.list [.text "2"]) := by
    unfold Choice.Matches
    decide
  obtain ⟨hnothing, -⟩ := answer_counted_or_reported Sample.extras (.text " ")
  obtain ⟨-, hnumber, -⟩ := answer_counted_or_reported Sample.length (.bool true)
  obtain ⟨-, -, hchoice, -⟩ := answer_counted_or_reported Sample.numbered (.list [.text "2"])
  obtain ⟨-, -, -, hseveral⟩ := answer_counted_or_reported Sample.extras answer
  obtain ⟨hreported, -, hcounted, hall⟩ := hseveral rfl
  have hgate := hcounted (Sample.extra "gate" 120) rfl
  refine ⟨(hnothing (by decide)).1, ?_, ?_, ?_, ?_, hall (by decide)⟩
  · rcases hnumber rfl rfl with ⟨n, -, hn⟩ | ⟨hnone, -⟩
    · exact ⟨n, hn⟩
    · cases hnone
  · rcases hchoice rfl (.inl rfl) with ⟨o, ho, hmatches, -⟩ | ⟨-, hissue⟩
    · exact absurd ⟨o, ho, hmatches⟩ hlist
    · rw [hissue]
      rfl
  · exact (hreported (.text "moat") (by simp [hentries])).mpr hmoat
  · exact hgate.1 ⟨.text "gate", by simp [hentries], .inr rfl⟩

/-- Of two gates with one id the first is answered, and the answer leaves no trace. -/
theorem answer_dropped_twoGates :
    let answer := Value.list [.text "oak"]
    Sample.twoGates.isMultiSelect = true
      ∧ (∀ entry ∈ Answer.entries answer, ∃ o ∈ Sample.twoGates.choices, o.Matches entry)
      ∧ (Sample.twoGates.contributions answer).issues = []
      ∧ (Sample.twoGates.contributions answer).contributions = [("extra_gate", .number .zero)]
      ∧ (Sample.twoGates.contributions .null).contributions = [("extra_gate", .number .zero)]
      ∧ Sample.twoGates.choiceDefects = [.duplicateChoice "gate" "steel"] := by
  intro answer
  have hentries : Answer.entries answer = [.text "oak"] := rfl
  refine ⟨rfl, fun entry hentry => ?_, rfl, by decide, by decide, rfl⟩
  obtain rfl := List.mem_singleton.mp (hentries ▸ hentry)
  exact ⟨_, List.mem_cons_self, .inl rfl⟩

end Variable

end Tariff

import Mathlib.Data.List.Nodup
import Tariff.Coercion
import Tariff.Proofs.OrderedMap
import Tariff.Proofs.Sample
import Tariff.Proofs.Validation

/-!
# Tokens of a valid formula

The tokens of a variable all start with its id. The check of a formula refuses two ids of which one
starts with the other, and two options of one id in one variable, so that in a valid formula no
token can be had in two ways (`nodup_tokens_of_valid`), whatever the kinds of its variables are. No
contribution then takes the place of another one in the map of all contributions:

* `Variable.keys_contributions` — a variable contributes exactly its own tokens;
* `contributions_tokenMap` — the map of all contributions is that of each variable after the other.
-/

namespace Tariff

/-! ## Ids that do not collide -/

/-- Neither of two ids starts with the other. -/
def Apart (v w : Variable) : Prop :=
  ¬ v.id.toList <+: w.id.toList ∧ ¬ w.id.toList <+: v.id.toList

instance : Std.Symm Apart :=
  ⟨fun _ _ h => ⟨h.2, h.1⟩⟩

theorem Text.ne_empty_of_not_blank {s : String} (h : isBlankText s = false) : s ≠ "" := by
  rintro rfl
  exact absurd h (by decide)

/-- Without a defect between them, the ids of two variables do not collide. -/
theorem Variable.apart_of_idDefects {v w : Variable} {others : List Variable}
    (hw : w ∈ others) (hid : Text.isBlankText w.id = false) (h : v.idDefects others = []) :
    Apart v w := by
  have hne : w.id ≠ "" := Text.ne_empty_of_not_blank hid
  unfold idDefects at h
  split at h
  · cases h
  · have hmem : w ∈ others.filter fun o => !o.id.isEmpty :=
      List.mem_filter.mpr ⟨hw, by simpa using hne⟩
    have hnone := List.filterMap_eq_nil_iff.mp h w hmem
    split at hnone
    · cases hnone
    · split at hnone
      · cases hnone
      · next hcollide =>
        simp only [Bool.or_eq_true, List.isPrefixOf_iff_prefix, not_or] at hcollide
        exact hcollide

theorem Variable.not_blank_of_idDefects {v : Variable} {others : List Variable}
    (h : v.idDefects others = []) : Text.isBlankText v.id = false := by
  unfold idDefects at h
  split at h
  · cases h
  · next hblank => simpa using hblank

/-- What is wrong with the id or the options of a variable counts as a defect at its place. -/
theorem Formula.idDefects_of_defectsAt {f : Formula} {unitLimit : Int} {v : Variable} {place : Nat}
    (h : f.defectsAt unitLimit v place = []) :
    v.idDefects (f.questions.eraseIdx place) = [] ∧ v.choiceDefects = [] := by
  simp only [defectsAt, Variable.ownDefects, List.append_eq_nil_iff] at h
  obtain ⟨⟨⟨⟨⟨-, hid⟩, -⟩, -⟩, hchoice⟩, -⟩ := h
  exact ⟨hid, hchoice⟩

section Valid

variable {f : Formula} {unitLimit : Int} {report : Report}

theorem Formula.not_blank_of_valid (h : f.validate unitLimit = .ok report)
    (hvalid : report.valid = true) {v : Variable} (hv : v ∈ f.questions) :
    Text.isBlankText v.id = false := by
  obtain ⟨place, hplace⟩ := List.mem_iff_getElem?.mp hv
  have hdefects := defectsAt_of_valid h hvalid hplace
  exact Variable.not_blank_of_idDefects (idDefects_of_defectsAt hdefects).1

/-- The ids of a valid formula do not collide. -/
theorem Formula.pairwise_apart_of_valid (h : f.validate unitLimit = .ok report)
    (hvalid : report.valid = true) : f.questions.Pairwise Apart := by
  have hids : ∀ (i : Nat) (hi : i < f.questions.length),
      f.questions[i].idDefects (f.questions.eraseIdx i) = [] := fun i hi =>
    (idDefects_of_defectsAt (defectsAt_of_valid h hvalid (List.getElem?_eq_getElem hi))).1
  rw [List.pairwise_iff_getElem]
  intro i j hi hj hij
  have hmem : f.questions[j] ∈ f.questions.eraseIdx i :=
    List.mem_eraseIdx_iff_getElem.mpr ⟨j, hj, by omega, rfl⟩
  exact Variable.apart_of_idDefects hmem (Variable.not_blank_of_idDefects (hids j hj)) (hids i hi)

theorem Formula.nodup_ids_of_valid (h : f.validate unitLimit = .ok report)
    (hvalid : report.valid = true) : (f.questions.map (·.id)).Nodup := by
  rw [List.Nodup, List.pairwise_map]
  refine (pairwise_apart_of_valid h hvalid).imp fun hapart heq => ?_
  exact hapart.1 ⟨[], by rw [heq, List.append_nil]⟩

end Valid

/-! ## Options that do not repeat -/

theorem Variable.nodup_of_duplicateChoices {ids values : List String} {cs : List Choice}
    (h : duplicateChoices ids values cs = []) :
    ((cs.map (·.id)).Nodup ∧ (cs.map (·.value.plain)).Nodup)
      ∧ ∀ c ∈ cs, c.id ∉ ids ∧ c.value.plain ∉ values := by
  induction cs generalizing ids values with
  | nil => simp
  | cons c cs ih =>
    rw [duplicateChoices] at h
    split at h
    · cases h
    · next hfresh =>
      obtain ⟨⟨hids, hvalues⟩, hnew⟩ := ih h
      simp only [Bool.or_eq_true, List.contains_iff_mem, not_or] at hfresh
      refine ⟨⟨List.nodup_cons.mpr ⟨?_, hids⟩, List.nodup_cons.mpr ⟨?_, hvalues⟩⟩, fun d hd => ?_⟩
      · intro hmem
        obtain ⟨d, hd, heq⟩ := List.mem_map.mp hmem
        exact (hnew d hd).1 (by rw [heq]; exact List.mem_cons_self)
      · intro hmem
        obtain ⟨d, hd, heq⟩ := List.mem_map.mp hmem
        exact (hnew d hd).2 (by rw [heq]; exact List.mem_cons_self)
      · rcases List.mem_cons.mp hd with rfl | hd
        · exact hfresh
        · obtain ⟨hid, hvalue⟩ := hnew d hd
          exact ⟨fun hmem => hid (List.mem_cons_of_mem _ hmem),
            fun hmem => hvalue (List.mem_cons_of_mem _ hmem)⟩

/-- Neither ids nor values of options repeat where nothing is wrong with them. -/
theorem Variable.nodup_choices {v : Variable} (hoptions : v.kind.hasOptions = true)
    (h : v.choiceDefects = []) :
    (v.choices.map (·.id)).Nodup ∧ (v.choices.map (·.value.plain)).Nodup := by
  simp only [choiceDefects, hoptions, Bool.not_true, Bool.false_eq_true, if_false,
    List.append_eq_nil_iff] at h
  exact (nodup_of_duplicateChoices h.2).1

namespace Variable

theorem mem_choices_of_choiceNamed? {v : Variable} {s : String} {c : Choice}
    (h : v.choiceNamed? s = some c) : c ∈ v.choices := by
  simp only [choiceNamed?, Option.or_eq_some_iff] at h
  rcases h with h | ⟨-, h⟩
  · exact List.mem_of_find?_eq_some h
  · exact List.mem_of_find?_eq_some h

theorem mem_choices_of_choiceFor? {v : Variable} {answer : Value} {c : Choice}
    (h : v.choiceFor? answer = some c) : c ∈ v.choices := by
  cases answer with
  | null => cases h
  | _ => exact mem_choices_of_choiceNamed? h

/-! ## The tokens of a variable -/

theorem isMultiSelect_iff {v : Variable} :
    v.isMultiSelect = true ↔ v.kind = .multipleChoice ∧ v.allowsSeveral = true := by
  simp [isMultiSelect]

theorem tokens_of_isMultiSelect {v : Variable} (h : v.isMultiSelect = true) :
    v.tokens = v.choices.map v.choiceToken := by
  rw [tokens, if_pos h]

theorem tokens_of_not_isMultiSelect {v : Variable} (h : ¬ v.isMultiSelect = true) :
    v.tokens = [v.id] := by
  rw [tokens, if_neg h]

/-- Every token of a variable starts with its id. -/
theorem id_isPrefix_of_mem_tokens {v : Variable} {t : String} (h : t ∈ v.tokens) :
    v.id.toList <+: t.toList := by
  by_cases hmulti : v.isMultiSelect = true
  · rw [tokens_of_isMultiSelect hmulti] at h
    obtain ⟨c, -, rfl⟩ := List.mem_map.mp h
    simp only [choiceToken, String.toList_append, List.append_assoc]
    exact List.prefix_append _ _
  · rw [tokens_of_not_isMultiSelect hmulti] at h
    obtain rfl := List.mem_singleton.mp h
    exact List.prefix_rfl

/-- Options of different ids have different tokens. -/
theorem choiceToken_inj {v : Variable} {c d : Choice} (h : v.choiceToken c = v.choiceToken d) :
    c.id = d.id := by
  have hchars := congrArg String.toList h
  simp only [choiceToken, String.toList_append, List.append_assoc] at hchars
  have htail := List.append_cancel_left (List.append_cancel_left hchars)
  exact String.toList_inj.mp htail

theorem hasOptions_of_isMultiSelect {v : Variable} (h : v.isMultiSelect = true) :
    v.kind.hasOptions = true := by
  rw [(isMultiSelect_iff.mp h).1]
  rfl

theorem nodup_tokens {v : Variable} (h : v.choiceDefects = []) : v.tokens.Nodup := by
  by_cases hmulti : v.isMultiSelect = true
  · have hids := (nodup_choices (hasOptions_of_isMultiSelect hmulti) h).1
    rw [tokens_of_isMultiSelect hmulti]
    rw [List.Nodup, List.pairwise_map] at hids ⊢
    exact hids.imp fun hne heq => hne (choiceToken_inj heq)
  · rw [tokens_of_not_isMultiSelect hmulti]
    exact List.nodup_singleton _

/-- A token does not start with a token of a variable whose id does not collide: two ids that the
same text starts with would start with one another. -/
theorem not_prefix_of_apart {v w : Variable} (h : Apart v w) {s t : String} (ht : t ∈ v.tokens)
    (hs : s ∈ w.tokens) : ¬ t.toList <+: s.toList := by
  intro hlead
  have hv := (id_isPrefix_of_mem_tokens ht).trans hlead
  rcases List.prefix_or_prefix_of_prefix hv (id_isPrefix_of_mem_tokens hs) with hvw | hwv
  · exact h.1 hvw
  · exact h.2 hwv

theorem disjoint_tokens {v w : Variable} (h : Apart v w) : v.tokens.Disjoint w.tokens :=
  fun _ hv hw => not_prefix_of_apart h hv hw List.prefix_rfl

/-! ## The contributions of a variable -/

theorem keys_choiceContribution (v : Variable) (amount : Choice → Number) (answer : Value)
    (issues : List CoercionIssue) :
    (v.choiceContribution amount answer issues).contributions.keys = [v.id] := by
  unfold choiceContribution
  split
  · rfl
  · split <;> rfl

theorem keys_numericContribution (v : Variable) (answer : Value) :
    (v.numericContribution answer).contributions.keys = [v.id] := by
  unfold numericContribution
  split
  · rfl
  · split <;> rfl

/-- What the options of a variable contribute for an answer, each by whether it is chosen. -/
def choiceContributions (v : Variable) (answer : Value) : OrderedMap Contribution :=
  v.choices.map fun c =>
    (v.choiceToken c,
      .number (if c.isIn (Answer.selection answer) then c.number else c.unselected))

theorem contributions_eq_selectionContributions {v : Variable} (hmulti : v.isMultiSelect = true)
    (answer : Value) : v.contributions answer = v.selectionContributions answer := by
  obtain ⟨hkind, hseveral⟩ := isMultiSelect_iff.mp hmulti
  simp only [contributions, hkind, hseveral, if_true]

theorem contributions_selectionContributions (v : Variable) (answer : Value) :
    (v.selectionContributions answer).contributions
      = OrderedMap.ofList (v.choiceContributions answer) :=
  rfl

/-- If several options may be chosen and no two have one token, every option contributes on its
own. -/
theorem contributions_of_isMultiSelect {v : Variable} (h : v.tokens.Nodup)
    (hmulti : v.isMultiSelect = true) (answer : Value) :
    (v.contributions answer).contributions = v.choiceContributions answer := by
  rw [tokens_of_isMultiSelect hmulti] at h
  rw [contributions_eq_selectionContributions hmulti, contributions_selectionContributions]
  exact OrderedMap.ofList_eq_self (by rw [choiceContributions, OrderedMap.keys_map]; exact h)

/-- **A variable contributes exactly its tokens**, in their order, whatever is answered. -/
theorem keys_contributions {v : Variable} (h : v.tokens.Nodup) (answer : Value) :
    (v.contributions answer).contributions.keys = v.tokens := by
  by_cases hmulti : v.isMultiSelect = true
  · rw [contributions_of_isMultiSelect h hmulti, tokens_of_isMultiSelect hmulti,
      choiceContributions, OrderedMap.keys_map]
  · rw [tokens_of_not_isMultiSelect hmulti]
    unfold contributions
    split
    · exact keys_numericContribution v answer
    · exact keys_numericContribution v answer
    · exact keys_numericContribution v answer
    · rfl
    · rfl
    · exact keys_choiceContribution v _ _ _
    · exact keys_choiceContribution v _ _ _
    · next hkind =>
      have hsingle : ¬ v.allowsSeveral = true := fun hseveral =>
        hmulti (isMultiSelect_iff.mpr ⟨hkind, hseveral⟩)
      rw [if_neg hsingle]
      exact keys_choiceContribution v _ _ _

theorem find?_contributions_choice {v : Variable} (h : v.tokens.Nodup)
    (hmulti : v.isMultiSelect = true) {c : Choice} (hc : c ∈ v.choices) (answer : Value) :
    (v.contributions answer).contributions.find? (v.choiceToken c)
      = some (.number (if c.isIn (Answer.selection answer) then c.number else c.unselected)) := by
  refine OrderedMap.find?_of_mem (by rw [keys_contributions h]; exact h) ?_
  rw [contributions_of_isMultiSelect h hmulti]
  exact List.mem_map.mpr ⟨c, hc, rfl⟩

end Variable

/-! ## The contributions of a formula -/

/-- The answer that a variable takes from a map of effective values. -/
def effectiveAnswer (effective : OrderedMap Value) (v : Variable) : Value :=
  (effective.find? v.id).getD .null

theorem keys_flatMap_contributions {questions : List Variable}
    (h : (questions.flatMap Variable.tokens).Nodup) (effective : OrderedMap Value) :
    OrderedMap.keys (questions.flatMap fun v =>
        (v.contributions (effectiveAnswer effective v)).contributions)
      = questions.flatMap Variable.tokens := by
  rw [OrderedMap.keys_flatMap]
  refine List.flatMap_congr fun v hv => ?_
  exact Variable.keys_contributions ((List.nodup_flatMap.mp h).1 v hv) _

/-- Where no token can be had in two ways, the contributions of all variables stand one after the
other. -/
theorem contributions_tokenMap {questions : List Variable}
    (h : (questions.flatMap Variable.tokens).Nodup) (effective : OrderedMap Value) :
    (tokenMap questions effective).contributions
      = questions.flatMap fun v =>
          (v.contributions (effectiveAnswer effective v)).contributions := by
  have hkeys := keys_flatMap_contributions h effective
  have hall : (tokenMap questions effective).contributions
      = OrderedMap.ofList (questions.flatMap fun v =>
          (v.contributions (effectiveAnswer effective v)).contributions) := by
    show OrderedMap.ofList ((questions.map _).flatMap Coerced.contributions) = _
    rw [List.flatMap_map]
    rfl
  rw [hall, OrderedMap.ofList_eq_self (by rw [hkeys]; exact h)]

/-- What a variable contributes to one of its tokens is found under that token. -/
theorem exists_contribution {questions : List Variable}
    (h : (questions.flatMap Variable.tokens).Nodup) (effective : OrderedMap Value) {v : Variable}
    (hv : v ∈ questions) {t : String} (ht : t ∈ v.tokens) :
    ∃ c, (v.contributions (effectiveAnswer effective v)).contributions.find? t = some c
      ∧ (tokenMap questions effective).contributions.find? t = some c := by
  have hown := (List.nodup_flatMap.mp h).1 v hv
  have hkeys := Variable.keys_contributions hown (effectiveAnswer effective v)
  rw [← hkeys] at ht
  obtain ⟨⟨_, c⟩, hc, rfl⟩ := List.mem_map.mp ht
  refine ⟨c, OrderedMap.find?_of_mem (by rw [hkeys]; exact hown) hc, ?_⟩
  refine OrderedMap.find?_of_mem ?_ ?_
  · rw [contributions_tokenMap h, keys_flatMap_contributions h]
    exact h
  · rw [contributions_tokenMap h]
    exact List.mem_flatMap.mpr ⟨v, hv, hc⟩

section Valid

variable {f : Formula} {unitLimit : Int} {report : Report}

/-- In a valid formula no token can be had in two ways. -/
theorem Formula.nodup_tokens_of_valid (h : f.validate unitLimit = .ok report)
    (hvalid : report.valid = true) : f.tokens.Nodup := by
  refine List.nodup_flatMap.mpr ⟨fun v hv => ?_, ?_⟩
  · obtain ⟨i, hi, rfl⟩ := List.getElem_of_mem hv
    have hdefects := defectsAt_of_valid h hvalid (List.getElem?_eq_getElem hi)
    exact Variable.nodup_tokens (idDefects_of_defectsAt hdefects).2
  · exact (pairwise_apart_of_valid h hvalid).imp fun hvw => Variable.disjoint_tokens hvw

/-- The tokens of a valid formula are different, and whatever the effective values are, its map of
contributions has exactly these tokens, in their order. Under each token it has what the variable of
that token contributes for its own effective value, and under the token of an option what that
option alone contributes. -/
theorem Formula.contributions_of_valid (h : f.validate unitLimit = .ok report)
    (hvalid : report.valid = true) :
    f.tokens.Nodup ∧ ∀ effective : OrderedMap Value,
      (tokenMap f.questions effective).contributions.keys = f.tokens
      ∧ (∀ v ∈ f.questions, ∀ t ∈ v.tokens, ∃ c,
          (v.contributions (effectiveAnswer effective v)).contributions.find? t = some c
            ∧ (tokenMap f.questions effective).contributions.find? t = some c)
      ∧ ∀ v ∈ f.questions, v.isMultiSelect = true → ∀ o ∈ v.choices,
          (tokenMap f.questions effective).contributions.find? (v.choiceToken o)
            = some (.number (if o.isIn (Answer.selection (effectiveAnswer effective v))
                then o.number else o.unselected)) := by
  have hnodup := nodup_tokens_of_valid h hvalid
  refine ⟨hnodup, fun effective => ⟨?_, ?_, ?_⟩⟩
  · rw [contributions_tokenMap hnodup, keys_flatMap_contributions hnodup]
    rfl
  · intro v hv t ht
    exact exists_contribution hnodup effective hv ht
  · intro v hv hmulti o ho
    have htoken : v.choiceToken o ∈ v.tokens := by
      rw [Variable.tokens_of_isMultiSelect hmulti]
      exact List.mem_map.mpr ⟨o, ho, rfl⟩
    obtain ⟨c, hown, hmap⟩ := exists_contribution hnodup effective hv htoken
    rw [hmap, ← hown]
    exact Variable.find?_contributions_choice ((List.nodup_flatMap.mp hnodup).1 v hv) hmulti ho _

end Valid

/-- The check of a fence, which is valid. -/
theorem Formula.validate_fence : ∃ report, Sample.fence.validate defaultUnitLimit = .ok report
    ∧ report.valid = true :=
  ⟨_, validate_eq_ok_iff.mpr ⟨by decide, rfl⟩, by decide⟩

/-- Whatever is answered, the price of a fence is computed from three contributions. -/
theorem Formula.contributions_of_valid_fence :
    (∀ effective : OrderedMap Value,
      (tokenMap Sample.fence.questions effective).contributions.keys
        = ["length", "extra_gate", "extra_paint"])
      ∧ ["length", "extra_gate", "extra_paint"].Nodup := by
  have hmeasured : ∀ v ∈ Sample.fence.questions, v.IsMeasured := by decide
  have hreport : Sample.fence.validate defaultUnitLimit
      = .ok (Report.of (Sample.fence.definitionErrors defaultUnitLimit) Sample.fence.advice) :=
    validate_eq_ok_iff.mpr ⟨hmeasured, rfl⟩
  obtain ⟨hnodup, hmap⟩ := Formula.contributions_of_valid hreport (by decide)
  exact ⟨fun effective => (hmap effective).1, hnodup⟩

end Tariff

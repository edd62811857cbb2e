import Tariff.Proofs.Expression.Renaming
import Tariff.Proofs.Reordering

/-!
# Other ids

Nothing depends on what the variables of a formula are called. If they are given other ids, also in
conditions and in the expression, and the formula is as sound as it was, every customer is asked the
same and pays the same (`Formula.calculate_renamed`). Three things are behind this:

* variables contribute what they did, under their new tokens
  (`Variable.values_contributions_renamed`);
* what is resolved is resolved alike, under the new ids (`Resolution.simulates_run`);
* the expression is filled in alike, because every token stands for what the old one in its place
  stood for (`Formula.filledIn_renamed`).
-/

namespace Tariff

open Expression

variable {r : String → String}

/-! ## Renaming -/

/-- A condition on the variable that has the new name. -/
def Condition.renamed (r : String → String) (c : Condition) : Condition :=
  { c with dependsOn := r c.dependsOn }

/-- A rule with its conditions on the variables that have the new names. -/
def VisibilityRule.renamed (r : String → String) (rule : VisibilityRule) : VisibilityRule :=
  { rule with conditions := rule.conditions.map (·.renamed r) }

/-- The variable under another id, with conditions on the new ids of others. -/
def Variable.renamed (r : String → String) (v : Variable) : Variable :=
  { v with id := r v.id, rule? := v.rule?.map (·.renamed r) }

namespace Formula

/-- The words that are renamed: each token of a variable becomes the one in its place. -/
def newNames (r : String → String) (f : Formula) : Replacements :=
  f.questions.flatMap fun v =>
    (v.tokens.zip (v.renamed r).tokens).map fun t => (t.1.toList, t.2.toList)

/-- The formula with other ids: of its variables, in their conditions, and in every whole word of
the expression that is a token. -/
def renamed (r : String → String) (f : Formula) : Formula :=
  { f with
    expression := String.ofList (Expression.renamed (f.newNames r) f.expression.toList)
    questions := f.questions.map (·.renamed r) }

example : (Sample.fence.renamed Sample.otherId).expression
    = "extra * 12 + addition_gate + addition_paint" := by decide

end Formula

/-! ## What a variable contributes -/

namespace Variable

variable {v : Variable}

theorem tokens_renamed : (v.renamed r).tokens
    = if v.isMultiSelect then v.choices.map fun c => r v.id ++ "_" ++ c.id else [r v.id] := rfl

theorem length_tokens_renamed : (v.renamed r).tokens.length = v.tokens.length := by
  rw [tokens_renamed, tokens]
  split
  · rw [List.length_map, List.length_map]
  · rfl

/-- A variable with one token contributes the same under its new id. -/
theorem contributions_renamed (h : ¬ v.isMultiSelect = true) (answer : Value) :
    ((v.renamed r).contributions answer).contributions
      = (v.contributions answer).contributions.rekeyed r := by
  have hnumeric : ((v.renamed r).numericContribution answer).contributions
      = (v.numericContribution answer).contributions.rekeyed r := by
    unfold numericContribution
    split
    · rfl
    · split <;> rfl
  have hchoice : ∀ (amount : Choice → Number) (answer : Value)
      (issues issues' : List CoercionIssue),
      ((v.renamed r).choiceContribution amount answer issues').contributions
        = (v.choiceContribution amount answer issues).contributions.rekeyed r := by
    intro amount answer issues issues'
    have hfor : (v.renamed r).choiceFor? answer = v.choiceFor? answer := rfl
    unfold choiceContribution
    rw [hfor]
    split
    · rfl
    · cases v.choiceFor? answer <;> rfl
  have hkind : (v.renamed r).kind = v.kind := rfl
  unfold contributions
  rw [hkind]
  cases hv : v.kind with
  | number => exact hnumeric
  | stepper => exact hnumeric
  | slider => exact hnumeric
  | text => rfl
  | checkbox => rfl
  | dropdown => exact hchoice _ _ _ _
  | select => exact hchoice _ _ _ _
  | multipleChoice =>
    have hsingle : ¬ v.allowsSeveral = true := fun hseveral =>
      h (isMultiSelect_iff.mpr ⟨hv, hseveral⟩)
    have hsingle' : ¬ (v.renamed r).allowsSeveral = true := hsingle
    simp only [hsingle, hsingle']
    exact hchoice _ _ _ _

/-- **The values of the contributions stay**, whatever the tokens are. -/
theorem values_contributions_renamed (h : v.tokens.Nodup) (h' : (v.renamed r).tokens.Nodup)
    (answer : Value) :
    ((v.renamed r).contributions answer).contributions.map (·.2)
      = (v.contributions answer).contributions.map (·.2) := by
  by_cases hmulti : v.isMultiSelect = true
  · have hmulti' : (v.renamed r).isMultiSelect = true := hmulti
    rw [contributions_of_isMultiSelect h hmulti, contributions_of_isMultiSelect h' hmulti',
      choiceContributions, choiceContributions, List.map_map, List.map_map]
    rfl
  · rw [contributions_renamed hmulti, OrderedMap.rekeyed, OrderedMap.renamed, List.map_map]
    rfl

/-! ## What a variable is compared by -/

theorem comparableNumber?_renamed (answer : Value) :
    (v.renamed r).comparableNumber? answer = v.comparableNumber? answer := by
  unfold comparableNumber?
  show (if v.kind.isNumeric || v.kind == .text then Answer.number? answer
      else if v.isMultiSelect then none
      else (((v.renamed r).contributions answer).contributions.find? (r v.id)).bind
        fun c => Answer.number? c.toValue) = _
  by_cases hmulti : v.isMultiSelect = true
  · rw [if_pos hmulti, if_pos hmulti]
  · have htokens : v.tokens = [v.id] := tokens_of_not_isMultiSelect hmulti
    have hkeys : ∀ k ∈ (v.contributions answer).contributions.keys, r k = r v.id → k = v.id := by
      intro k hk _
      rw [keys_contributions (by rw [htokens]; exact List.nodup_singleton _), htokens] at hk
      exact List.mem_singleton.mp hk
    rw [contributions_renamed hmulti, OrderedMap.find?_rekeyed hkeys]

theorem activeRule?_renamed : (v.renamed r).activeRule? = v.activeRule?.map (·.renamed r) := by
  unfold activeRule?
  show (v.rule?.map (·.renamed r)).filter (·.enabled) = _
  cases v.rule? with
  | none => rfl
  | some rule =>
    show (if rule.enabled then some (rule.renamed r) else none) = _
    rw [Option.filter_some]
    split <;> rfl

end Variable

/-- Tests look at the kind, the options and the answer of a variable. -/
theorem Comparison.holds_renamed (c : Comparison) (v : Variable) (answer expected : Value) :
    c.holds (v.renamed r) answer expected = c.holds v answer expected := by
  unfold Comparison.holds
  rw [Variable.comparableNumber?_renamed]
  rfl

/-! ## Resolution -/

/-- The resolved variables under other ids. -/
def Resolved.renamed (r : String → String) (resolved : Resolved) : Resolved :=
  OrderedMap.renamed r (fun e => (e.1.renamed r, e.2)) resolved

/-- No two ids become the same. -/
def KeepsApart (r : String → String) (ids : List String) : Prop :=
  ∀ a ∈ ids, ∀ b ∈ ids, r a = r b → a = b

namespace Resolution

variable {ids : List String} {answers : Answers} {R R' : Resolution} {v : Variable}
  {questions : List Variable}

/-- The second resolution is the first one under other ids, and all of these are different. -/
structure Simulates (r : String → String) (ids : List String) (R R' : Resolution) : Prop where
  resolved : R'.resolved = R.resolved.renamed r
  visibility : R'.visibility = R.visibility.rekeyed r
  resolvedIds : ∀ k ∈ R.resolved.keys, k ∈ ids
  visibilityIds : ∀ k ∈ R.visibility.keys, k ∈ ids

theorem simulates_start : Simulates r ids .start .start :=
  ⟨rfl, rfl, nofun, nofun⟩

theorem isVisible_renamed (hr : KeepsApart r ids) (h : Simulates r ids R R')
    (hconditions : ∀ c ∈ v.conditions, c.dependsOn ∈ ids) :
    (v.renamed r).isVisible R'.resolved = v.isVisible R.resolved := by
  unfold Variable.isVisible
  unfold Variable.conditions at hconditions
  rw [Variable.activeRule?_renamed]
  cases hrule : v.activeRule? with
  | none => rfl
  | some rule =>
    rw [hrule] at hconditions
    show Variable.joinConditions rule.connective ((rule.conditions.map (·.renamed r)).map _) = _
    rw [List.map_map]
    refine congrArg _ (List.map_congr_left fun c hc => ?_)
    have hfound : R'.resolved.find? (r c.dependsOn)
        = (R.resolved.find? c.dependsOn).map fun e => (e.1.renamed r, e.2) := by
      rw [h.resolved]
      exact OrderedMap.find?_renamed fun k hk heq =>
        hr k (h.resolvedIds k hk) _ (hconditions c hc) heq
    show (Option.map _ (R'.resolved.find? (r c.dependsOn))).getD false = (Option.map _ _).getD false
    rw [hfound, Option.map_map]
    cases R.resolved.find? c.dependsOn with
    | none => rfl
    | some e => exact Comparison.holds_renamed c.comparison e.1 e.2 c.expected

theorem effectiveValue_renamed (hr : KeepsApart r ids) (h : Simulates r ids R R')
    (hv : v.id ∈ ids) (hconditions : ∀ c ∈ v.conditions, c.dependsOn ∈ ids)
    (hanswers : ∀ k ∈ answers.keys, k ∈ ids) :
    effectiveValue (answers.rekeyed r) R'.resolved (v.renamed r)
      = effectiveValue answers R.resolved v := by
  have hraw : rawAnswer (v.renamed r) (answers.rekeyed r) = rawAnswer v answers := by
    show ((answers.rekeyed r).find? (r v.id)).getD v.prefilled = _
    rw [OrderedMap.find?_rekeyed fun k hk heq => hr k (hanswers k hk) _ hv heq]
    rfl
  have hfallback : fallback (v.renamed r) = fallback v := by
    show ((v.rule?.map (·.renamed r)).map (·.fallback)).getD .null = _
    rw [Option.map_map]
    rfl
  rw [effectiveValue, effectiveValue, isVisible_renamed hr h hconditions, hraw, hfallback]

/-- One step keeps two resolutions alike. -/
theorem Simulates.step (hr : KeepsApart r ids) (h : Simulates r ids R R') (hv : v.id ∈ ids)
    (hconditions : ∀ c ∈ v.conditions, c.dependsOn ∈ ids)
    (hanswers : ∀ k ∈ answers.keys, k ∈ ids) :
    Simulates r ids (step answers R v) (step (answers.rekeyed r) R' (v.renamed r)) where
  resolved := by
    rw [step_resolved, step_resolved, effectiveValue_renamed hr h hv hconditions hanswers,
      h.resolved]
    exact OrderedMap.insert_renamed _ (v, effectiveValue answers R.resolved v)
      fun k hk heq => hr k (h.resolvedIds k hk) _ hv heq
  visibility := by
    rw [step_visibility, step_visibility, isVisible_renamed hr h hconditions, h.visibility]
    exact OrderedMap.insert_rekeyed _ fun k hk heq => hr k (h.visibilityIds k hk) _ hv heq
  resolvedIds := by
    intro k hk
    rcases (mem_keys_resolved_step answers R v).mp hk with rfl | hk
    · exact hv
    · exact h.resolvedIds k hk
  visibilityIds := by
    intro k hk
    rcases OrderedMap.mem_keys_insert.mp hk with rfl | hk
    · exact hv
    · exact h.visibilityIds k hk

/-- **Variables under other ids are resolved alike.** -/
theorem simulates_run (hr : KeepsApart r ids) (h : Simulates r ids R R')
    (hquestions : ∀ v ∈ questions, v.id ∈ ids ∧ ∀ c ∈ v.conditions, c.dependsOn ∈ ids)
    (hanswers : ∀ k ∈ answers.keys, k ∈ ids) :
    Simulates r ids (run answers R questions)
      (run (answers.rekeyed r) R' (questions.map (·.renamed r))) := by
  induction questions generalizing R R' with
  | nil => exact h
  | cons v questions ih =>
    obtain ⟨⟨hv, hconditions⟩, hrest⟩ := List.forall_mem_cons.mp hquestions
    exact ih (h.step hr hv hconditions hanswers) hrest

end Resolution

theorem mem_ids_of_danglingConditions {questions : List Variable}
    (h : danglingConditions questions = []) :
    ∀ v ∈ questions, ∀ c ∈ v.conditions, c.dependsOn ∈ questions.map (·.id) := by
  intro v hv c hc
  obtain ⟨place, hplace, rfl⟩ := List.getElem_of_mem hv
  have hearlier := danglingConditions_eq_nil_iff.mp h _ place (List.getElem?_eq_getElem hplace) c hc
  exact List.map_subset _ (List.take_subset _ _) hearlier

/-! ## Results -/

/-- The second result tells the same as the first one, with other ids. -/
structure PriceResult.SameUnder (r : String → String) (a b : PriceResult) : Prop where
  price : b.price = a.price
  rounded : b.rounded = a.rounded
  clamped : b.clamped = a.clamped
  value : b.value = a.value
  substituted : b.substituted = a.substituted
  effective : b.effective = a.effective.map fun e => (r e.1, e.2)
  visibility : b.resolution.visibility = a.resolution.visibility.map fun e => (r e.1, e.2)

namespace Formula

variable {f : Formula} {answers : Answers}

/-- The renaming leaves a formula as sound as it was: no two variables get one id, conditions name
variables of the formula, no token can be had in two ways before or after, all tokens are words, and
no other word of the expression becomes a token. -/
structure Renames (r : String → String) (f : Formula) : Prop where
  ids : KeepsApart r (f.questions.map (·.id))
  conditions : ∀ v ∈ f.questions, ∀ c ∈ v.conditions, c.dependsOn ∈ f.questions.map (·.id)
  tokens : f.tokens.Nodup
  newTokens : (f.renamed r).tokens.Nodup
  words : ∀ t ∈ f.tokens, IsWord t.toList
  newWords : ∀ t ∈ (f.renamed r).tokens, IsWord t.toList
  left : ∀ w, Piece.word w ∈ pieces f.expression.toList →
    String.ofList w ∉ f.tokens → String.ofList w ∉ (f.renamed r).tokens

theorem newNames_eq_zip : f.newNames r
    = (f.tokens.map String.toList).zip ((f.renamed r).tokens.map String.toList) := by
  have hzip : ∀ questions : List Variable,
      (questions.flatMap fun v => v.tokens.zip (v.renamed r).tokens)
        = (questions.flatMap Variable.tokens).zip
            (questions.flatMap fun v => (v.renamed r).tokens) := by
    intro questions
    induction questions with
    | nil => rfl
    | cons v questions ih =>
      rw [List.flatMap_cons, List.flatMap_cons, List.flatMap_cons, ih,
        List.zip_append Variable.length_tokens_renamed.symm]
  have htokens : (f.renamed r).tokens = f.questions.flatMap fun v => (v.renamed r).tokens := by
    show (f.questions.map (·.renamed r)).flatMap Variable.tokens = _
    rw [List.flatMap_map]
  rw [newNames, ← List.map_flatMap, hzip, htokens, List.zip_map]
  rfl

theorem map_fst_replacements (htokens : f.tokens.Nodup) (answers : Answers) :
    (replacements (f.coerced answers).contributions).map (·.1) = f.tokens.map String.toList := by
  have hkeys : (f.coerced answers).contributions.keys = f.tokens := by
    rw [coerced, contributions_tokenMap htokens, keys_flatMap_contributions htokens]
    rfl
  rw [keys_replacements, hkeys]

theorem words_replacements (htokens : f.tokens.Nodup) (hwords : ∀ t ∈ f.tokens, IsWord t.toList)
    (answers : Answers) : (replacements (f.coerced answers).contributions).Words := by
  intro e he
  have hmem : e.1 ∈ f.tokens.map String.toList := by
    rw [← map_fst_replacements htokens answers]
    exact List.mem_map_of_mem he
  obtain ⟨t, ht, heq⟩ := List.mem_map.mp hmem
  rw [← heq]
  exact hwords t ht

section Renames

variable (h : f.Renames r) (hanswers : ∀ k ∈ answers.keys, k ∈ f.questions.map (·.id))
include h hanswers

theorem simulates_resolve : Resolution.Simulates r (f.questions.map (·.id))
    (resolve f.questions answers) (resolve (f.renamed r).questions (answers.rekeyed r)) := by
  have hrun := Resolution.simulates_run h.ids Resolution.simulates_start (fun v hv =>
    ⟨List.mem_map_of_mem hv, h.conditions v hv⟩) hanswers
  exact ⟨hrun.resolved, hrun.visibility, hrun.resolvedIds, hrun.visibilityIds⟩

theorem effective_renamed : (resolve (f.renamed r).questions (answers.rekeyed r)).effective
    = (resolve f.questions answers).effective.rekeyed r := by
  unfold Resolution.effective
  rw [(simulates_resolve h hanswers).resolved, Resolved.renamed, OrderedMap.rekeyed,
    OrderedMap.renamed, OrderedMap.renamed, List.map_map, List.map_map]
  rfl

theorem effectiveAnswer_renamed {v : Variable} (hv : v ∈ f.questions) :
    effectiveAnswer (resolve (f.renamed r).questions (answers.rekeyed r)).effective (v.renamed r)
      = effectiveAnswer (resolve f.questions answers).effective v := by
  have hkeys : (resolve f.questions answers).effective.keys
      = (resolve f.questions answers).resolved.keys := OrderedMap.keys_map _ _
  unfold effectiveAnswer
  rw [effective_renamed h hanswers]
  have hfound : (OrderedMap.rekeyed r (resolve f.questions answers).effective).find? (r v.id)
      = (resolve f.questions answers).effective.find? v.id := by
    refine OrderedMap.find?_rekeyed fun k hk heq => ?_
    rw [hkeys] at hk
    exact h.ids k ((simulates_resolve h hanswers).resolvedIds k hk) _ (List.mem_map_of_mem hv) heq
  exact congrArg (fun answer? => Option.getD answer? Value.null) hfound

/-- What is contributed stays, token by token. -/
theorem values_coerced_renamed :
    ((f.renamed r).coerced (answers.rekeyed r)).contributions.map (·.2)
      = (f.coerced answers).contributions.map (·.2) := by
  have htokens : ∀ v ∈ f.questions, v.tokens.Nodup := (List.nodup_flatMap.mp h.tokens).1
  have hnewTokens : ∀ v ∈ f.questions, (v.renamed r).tokens.Nodup := fun v hv =>
    (List.nodup_flatMap.mp h.newTokens).1 _ (List.mem_map_of_mem hv)
  rw [coerced, coerced, contributions_tokenMap h.newTokens, contributions_tokenMap h.tokens]
  have hquestions : (f.renamed r).questions = f.questions.map (·.renamed r) := rfl
  rw [hquestions, List.flatMap_map, List.map_flatMap, List.map_flatMap]
  rw [← hquestions]
  refine List.flatMap_congr fun v hv => ?_
  rw [effectiveAnswer_renamed h hanswers hv,
    Variable.values_contributions_renamed (htokens v hv) (hnewTokens v hv)]

/-- **The expression is filled in alike.** -/
theorem filledIn_renamed : (f.renamed r).filledIn (answers.rekeyed r) = f.filledIn answers := by
  have hkeys := map_fst_replacements h.tokens answers
  have hnewKeys := map_fst_replacements h.newTokens (answers.rekeyed r)
  have hvalues : (replacements (f.coerced answers).contributions).map (·.2)
      = (replacements ((f.renamed r).coerced (answers.rekeyed r)).contributions).map (·.2) := by
    have hfactors := congrArg (List.map Contribution.factor) (values_coerced_renamed h hanswers)
    rw [List.map_map, List.map_map] at hfactors
    unfold replacements
    rw [List.map_map, List.map_map]
    exact hfactors.symm
  have hnames : f.newNames r
      = (replacements (f.coerced answers).contributions).pairedWith
          (replacements ((f.renamed r).coerced (answers.rekeyed r)).contributions) := by
    rw [Replacements.pairedWith, hkeys, hnewKeys, newNames_eq_zip]
  have htext : (f.renamed r).expression.toList
      = Expression.renamed (f.newNames r) f.expression.toList := String.toList_ofList
  rw [filledIn, filledIn, htext, hnames]
  refine substitute_renamed ?_ ?_ hvalues ?_ ?_
  · exact words_replacements h.tokens h.words answers
  · exact words_replacements h.newTokens h.newWords (answers.rekeyed r)
  · rw [hnewKeys]
    exact h.newTokens.map fun _ _ => String.toList_inj.mp
  · rw [hkeys, hnewKeys]
    intro w hw hown hnew
    obtain ⟨t, ht, rfl⟩ := List.mem_map.mp hnew
    refine h.left t.toList hw ?_ (by rwa [String.ofList_toList])
    rw [String.ofList_toList]
    exact fun hmem => hown (List.mem_map_of_mem hmem)

/-- All that is told of a price stays, with other ids. -/
theorem resultUnder_renamed (value : Decimal) (rounded : Int) :
    (f.resultUnder answers value rounded).SameUnder r
      ((f.renamed r).resultUnder (answers.rekeyed r) value rounded) where
  price := rfl
  rounded := rfl
  clamped := rfl
  value := rfl
  substituted := congrArg (fun s : Substituted => String.ofList s.text)
    (filledIn_renamed h hanswers)
  effective := effective_renamed h hanswers
  visibility := (simulates_resolve h hanswers).visibility

end Renames

/-- Let a formula be valid, and still be valid after its variables have been given other ids, so
that no two of them have become the same. Let all tokens before and after be names, and let no other
name in the expression have become a token. Then for all answers to its variables, and the same
answers under the new ids, both formulas have the same fault or two results that tell the same: the
same price, rounded number, end of the range, value and substituted expression, and the same
effective values and visibility under the new ids. -/
theorem calculate_renamed (r : String → String) {unitLimit unitLimit' : Int}
    {report report' : Report} (h : f.validate unitLimit = .ok report) (hvalid : report.valid = true)
    (h' : (f.renamed r).validate unitLimit' = .ok report') (hvalid' : report'.valid = true)
    (htokens : ∀ t ∈ f.tokens, IsIdentifier t)
    (htokens' : ∀ t ∈ (f.renamed r).tokens, IsIdentifier t)
    (hleft : ∀ w, Piece.word w ∈ pieces f.expression.toList → isName w = true →
      String.ofList w ∉ f.tokens → String.ofList w ∉ (f.renamed r).tokens)
    (hanswers : ∀ k ∈ answers.keys, k ∈ f.questions.map (·.id)) (depth : Nat) :
    (∃ fault, f.calculate answers depth = .error fault
        ∧ (f.renamed r).calculate (answers.rekeyed r) depth = .error fault)
      ∨ ∃ a b, f.calculate answers depth = .ok a
        ∧ (f.renamed r).calculate (answers.rekeyed r) depth = .ok b ∧ a.SameUnder r b := by
  have hids' : ((f.questions.map (·.id)).map r).Nodup := by
    have hnodup := nodup_ids_of_valid h' hvalid'
    rw [renamed, List.map_map] at hnodup
    rw [List.map_map]
    exact hnodup
  have hrenames : f.Renames r :=
    { ids := fun a ha b hb => List.inj_on_of_nodup_map hids' ha hb
      conditions := mem_ids_of_danglingConditions (danglingConditions_of_valid h hvalid)
      tokens := nodup_tokens_of_valid h hvalid
      newTokens := nodup_tokens_of_valid h' hvalid'
      words := fun t ht => (htokens t ht).1
      newWords := fun t ht => (htokens' t ht).1
      left := by
        intro w hw hown hnew
        -- a token is a name, so only names can have become tokens
        have hname := (htokens' _ hnew).2
        rw [String.toList_ofList] at hname
        exact hleft w hw hname hown hnew }
  have hrange : (f.renamed r).range = f.range := rfl
  have hfilled := (filledIn_renamed hrenames hanswers).symm
  rcases calculate_of_filledIn hrange hfilled depth with hfault | ⟨value, rounded, hf, hg⟩
  · exact Or.inl hfault
  · exact Or.inr ⟨_, _, hf, hg, resultUnder_renamed hrenames hanswers value rounded⟩

/-- A fence by its extra length, with additions. -/
theorem calculate_renamed_fence :
    ∃ a b, Sample.fence.calculate [("length", .int 3), ("extra", .text "gate")] defaultDepth = .ok a
      ∧ (Sample.fence.renamed Sample.otherId).calculate
          [("extra", .int 3), ("addition", .text "gate")] defaultDepth = .ok b
      ∧ b.price = a.price ∧ b.substituted = a.substituted := by
  have hreport : Sample.fence.validate defaultUnitLimit
      = .ok (Report.of (Sample.fence.definitionErrors defaultUnitLimit) Sample.fence.advice) :=
    validate_eq_ok_iff.mpr ⟨by decide, rfl⟩
  have hrenamed : (Sample.fence.renamed Sample.otherId).validate defaultUnitLimit
      = .ok (Report.of ((Sample.fence.renamed Sample.otherId).definitionErrors defaultUnitLimit)
          (Sample.fence.renamed Sample.otherId).advice) :=
    validate_eq_ok_iff.mpr ⟨by decide, rfl⟩
  have hknown : ∀ p ∈ pieces Sample.fence.expression.toList, p = .word p.text →
      isName p.text = true → String.ofList p.text ∈ Sample.fence.tokens := by decide
  have hleft : ∀ w, Piece.word w ∈ pieces Sample.fence.expression.toList → isName w = true →
      String.ofList w ∉ Sample.fence.tokens →
      String.ofList w ∉ (Sample.fence.renamed Sample.otherId).tokens := by
    intro w hw hname hown
    exact absurd (hknown (.word w) hw rfl hname) hown
  have hanswers : ∀ k ∈ OrderedMap.keys [("length", Value.int 3), ("extra", .text "gate")],
      k ∈ Sample.fence.questions.map (·.id) := by decide
  rcases calculate_renamed Sample.otherId hreport (by decide) hrenamed (by decide) (by decide)
    (by decide) hleft hanswers defaultDepth with ⟨fault, hfault, -⟩ | ⟨a, b, ha, hb, hsame⟩
  · have hpriced : (Sample.fence.calculate [("length", .int 3), ("extra", .text "gate")]
        defaultDepth).isOk = true := by decide
    rw [hfault] at hpriced
    cases hpriced
  · exact ⟨a, b, ha, hb, hsame.price, hsame.substituted⟩

end Formula

end Tariff

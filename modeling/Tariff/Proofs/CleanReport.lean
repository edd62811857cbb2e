import Tariff.Proofs.Expression.Filling
import Tariff.Proofs.Pricing
import Tariff.Proofs.Tokens

/-!
# What a clean report is worth

The check of a formula tries its expression once, with one sample contribution for every token: the
checked value of a box, and one for anything else. A report is clean if this and all else went well.
What an answer contributes may still differ from the sample in ways that matter
(`calculate_of_clean_report_fails`), but not in any others: whatever a token may contribute that
stands on its own can take the place of the sample (`calculate_of_clean_report`).
-/

namespace Tariff

open Expression Text

/-! ## Contributions that stand on their own -/

/-- A text that is an expression. No text nests deeper than it is long. -/
def IsExpression (s : String) : Prop :=
  (Tree.ofText s.toList s.toList.length).isOk = true

instance (s : String) : Decidable (IsExpression s) :=
  inferInstanceAs (Decidable (_ = true))

/-- A finite number, or a text that is blank or an expression by itself. -/
def Contribution.StandsAlone : Contribution → Prop
  | .number n => n.isFinite = true
  | .text s => isBlankText s = true ∨ IsExpression s

instance (c : Contribution) : Decidable c.StandsAlone := by
  cases c <;> unfold Contribution.StandsAlone <;> infer_instance

/-- What stands on its own is written as an atom. -/
theorem Contribution.StandsAlone.spellsAtom {c : Contribution} (h : c.StandsAlone) :
    SpellsAtom c.factor := by
  cases c with
  | number n => exact (Number.factor_cases h).spellsAtom
  | text s =>
    cases hblank : isBlankText s with
    | true =>
      have hzero : IsNumber ['0'] := .whole (by decide) (by simp)
      rw [factor_of_blank hblank]
      exact ⟨_, .of_isNumber hzero, .number ['0']⟩
    | false =>
      have hexpression : IsExpression s := h.resolve_left (by simp [hblank])
      obtain ⟨t, ht⟩ : ∃ t, Tree.ofText s.toList s.toList.length = .ok t := by
        unfold IsExpression at hexpression
        cases htree : Tree.ofText s.toList s.toList.length with
        | error fault => rw [htree] at hexpression; cases hexpression
        | ok t => exact ⟨t, rfl⟩
      obtain ⟨row, hspells, hderives⟩ := spells_of_ofText ht
      -- the blanks around the text are not written
      obtain ⟨before, after, hbefore, hafter, hsplit⟩ := exists_trim s.toList
      rw [hsplit] at hspells
      rw [factor_of_not_blank hblank]
      exact ⟨_, (hspells.of_blanks hbefore hafter).parenthesized, .group hderives⟩

/-! ## What a variable may contribute -/

namespace Variable

variable {v : Variable}

/-- What the definition of a variable lets it contribute under a token, apart from zero and from the
numbers that are answered. -/
def definedContributions (v : Variable) (token : String) : List Contribution :=
  match v.kind with
  | .number | .stepper | .slider | .text => []
  | .checkbox => [.text v.checked, .text v.unchecked]
  | .dropdown => v.choices.map fun c => .number c.number
  | .select => v.choices.map fun c => .number c.amount
  | .multipleChoice =>
    if v.allowsSeveral then
      (v.choices.filter fun c => v.choiceToken c == token).flatMap fun c =>
        [.number c.number, .number c.unselected]
    else v.choices.map fun c => .number c.number

/-- A contribution that a variable may make under a token. -/
def MayContribute (v : Variable) (token : String) (c : Contribution) : Prop :=
  c ∈ v.definedContributions token ∨ ∃ n : Number, c = .number n ∧ n.isFinite = true

theorem mayContribute_zero {token : String} : v.MayContribute token (.number .zero) :=
  Or.inr ⟨_, rfl, rfl⟩

theorem isFinite_of_number? {answer : Value} {n : Number} (h : Answer.number? answer = some n) :
    n.isFinite = true := by
  cases answer with
  | bool b => cases h; rfl
  | int m => cases h; rfl
  | float x =>
    simp only [Answer.number?] at h
    split at h
    · next hfinite => cases h; exact hfinite
    · cases h
  | text s =>
    obtain ⟨x, -, hx⟩ := Option.bind_eq_some_iff.mp h
    split at hx
    · next hfinite => cases hx; exact hfinite
    · cases hx
  | null | list items | record fields => cases h

/-- What is found in the contribution under a single id. -/
theorem eq_of_find?_contributing {token : String} {given c : Contribution}
    {issues : List CoercionIssue}
    (h : (v.contributing given issues).contributions.find? token = some c) : c = given := by
  have hmem := OrderedMap.mem_of_find? h
  simp only [contributing, List.mem_singleton, Prod.mk.injEq] at hmem
  exact hmem.2

theorem mayContribute_numeric {token : String} {answer : Value} {c : Contribution}
    (h : (v.numericContribution answer).contributions.find? token = some c) :
    v.MayContribute token c := by
  unfold numericContribution at h
  split at h
  · rw [eq_of_find?_contributing h]
    exact mayContribute_zero
  · split at h
    · next n hn =>
      rw [eq_of_find?_contributing h]
      exact Or.inr ⟨n, rfl, isFinite_of_number? hn⟩
    · rw [eq_of_find?_contributing h]
      exact mayContribute_zero

theorem mayContribute_choice {token : String} {amount : Choice → Number} {answer : Value}
    {issues : List CoercionIssue} {c : Contribution}
    (hdefined : ∀ o ∈ v.choices, .number (amount o) ∈ v.definedContributions token)
    (h : (v.choiceContribution amount answer issues).contributions.find? token = some c) :
    v.MayContribute token c := by
  unfold choiceContribution at h
  split at h
  · rw [eq_of_find?_contributing h]
    exact mayContribute_zero
  · split at h
    · next o ho =>
      rw [eq_of_find?_contributing h]
      exact Or.inl (hdefined o (mem_choices_of_choiceFor? ho))
    · rw [eq_of_find?_contributing h]
      exact mayContribute_zero

/-- **Whatever is answered, a variable contributes what its definition lets it**, or a finite
number. -/
theorem mayContribute_of_find? {token : String} {answer : Value} {c : Contribution}
    (htokens : v.tokens.Nodup) (h : (v.contributions answer).contributions.find? token = some c) :
    v.MayContribute token c := by
  by_cases hmulti : v.isMultiSelect = true
  · rw [contributions_of_isMultiSelect htokens hmulti] at h
    obtain ⟨o, ho, heq⟩ := List.mem_map.mp (OrderedMap.mem_of_find? h)
    obtain ⟨rfl, rfl⟩ := Prod.mk.inj heq
    obtain ⟨hkind, hseveral⟩ := isMultiSelect_iff.mp hmulti
    left
    simp only [definedContributions, hkind, hseveral, if_true]
    refine List.mem_flatMap.mpr ⟨o, List.mem_filter.mpr ⟨ho, by simp⟩, ?_⟩
    split <;> simp
  · unfold contributions at h
    split at h
    · exact mayContribute_numeric h
    · exact mayContribute_numeric h
    · exact mayContribute_numeric h
    · rw [eq_of_find?_contributing h]
      exact mayContribute_zero
    · next hkind =>
      rw [eq_of_find?_contributing h]
      left
      simp only [definedContributions, hkind]
      split <;> simp
    · next hkind =>
      refine mayContribute_choice (fun o ho => ?_) h
      simp only [definedContributions, hkind]
      exact List.mem_map.mpr ⟨o, ho, rfl⟩
    · next hkind =>
      refine mayContribute_choice (fun o ho => ?_) h
      simp only [definedContributions, hkind]
      exact List.mem_map.mpr ⟨o, ho, rfl⟩
    · next hkind =>
      have hsingle : ¬ v.allowsSeveral = true := fun hseveral =>
        hmulti (isMultiSelect_iff.mpr ⟨hkind, hseveral⟩)
      rw [if_neg hsingle] at h
      refine mayContribute_choice (fun o ho => ?_) h
      simp only [definedContributions, hkind, if_neg hsingle]
      exact List.mem_map.mpr ⟨o, ho, rfl⟩

end Variable

namespace Formula

variable {f : Formula} {unitLimit : Int}

/-! ## The sample -/

/-- The expression of a formula, cut into its tokens and other characters. -/
def stretches (f : Formula) : List Segment :=
  segments (f.tokens.map String.toList) f.expression.toList

/-- Where no token can be had in two ways, the sample has a contribution for each of them. -/
theorem sampleContributions_eq (h : f.tokens.Nodup) :
    f.sampleContributions = (f.questions.flatMap fun v => v.tokens.map fun t =>
      (t, if v.kind == .checkbox then Contribution.text v.checked else .number (.whole 1)))
      ∧ f.sampleContributions.keys = f.tokens := by
  have hkeys : OrderedMap.keys (f.questions.flatMap fun v => v.tokens.map fun t =>
      (t, if v.kind == .checkbox then Contribution.text v.checked else .number (.whole 1)))
      = f.tokens := by
    rw [OrderedMap.keys_flatMap]
    refine List.flatMap_congr fun v _ => ?_
    rw [OrderedMap.keys_map, List.map_id']
  have hself := OrderedMap.ofList_eq_self (by rw [hkeys]; exact h)
  exact ⟨hself, by rw [sampleContributions, hself, hkeys]⟩

theorem mayContribute_sample (h : f.tokens.Nodup) {v : Variable} (hv : v ∈ f.questions)
    {t : String} (ht : t ∈ v.tokens) :
    ∃ c, f.sampleContributions.find? t = some c ∧ v.MayContribute t c := by
  obtain ⟨hentries, hkeys⟩ := sampleContributions_eq h
  refine ⟨if v.kind == .checkbox then .text v.checked else .number (.whole 1), ?_, ?_⟩
  · refine OrderedMap.find?_of_mem (by rw [hkeys]; exact h) ?_
    rw [hentries]
    exact List.mem_flatMap.mpr ⟨v, hv, List.mem_map.mpr ⟨t, ht, rfl⟩⟩
  · split
    · next hkind =>
      left
      simp only [Variable.definedContributions, beq_iff_eq.mp hkind]
      exact List.mem_cons_self
    · exact Or.inr ⟨_, rfl, rfl⟩

theorem mayContribute_coerced (h : f.tokens.Nodup) (answers : Answers) {v : Variable}
    (hv : v ∈ f.questions) {t : String} (ht : t ∈ v.tokens) :
    ∃ c, (f.coerced answers).contributions.find? t = some c ∧ v.MayContribute t c := by
  obtain ⟨c, hown, hfound⟩ :=
    exists_contribution h (resolve f.questions answers).effective hv ht
  exact ⟨c, hfound, Variable.mayContribute_of_find? ((List.nodup_flatMap.mp h).1 v hv) hown⟩

/-! ## From the sample to every answer -/

/-- Whatever a variable is made to contribute under a token of the expression stands alone. -/
def IsSound (f : Formula) : Prop :=
  ∀ v ∈ f.questions, ∀ t ∈ v.tokens, .token t.toList ∈ f.stretches →
    ∀ c ∈ v.definedContributions t, c.StandsAlone

instance (f : Formula) : Decidable f.IsSound :=
  inferInstanceAs (Decidable (∀ _ ∈ _, _))

theorem spellsAtom_render (hsound : f.IsSound) {tokens : OrderedMap Contribution}
    (hfound : ∀ v ∈ f.questions, ∀ t ∈ v.tokens,
      ∃ c, tokens.find? t = some c ∧ v.MayContribute t c)
    {name : List Char} (hname : .token name ∈ f.stretches) :
    SpellsAtom (Segment.render (replacements tokens) (.token name)) := by
  obtain ⟨t, ht, rfl⟩ := List.mem_map.mp (mem_names_of_mem_segmentsFrom hname)
  obtain ⟨v, hv, htv⟩ := List.mem_flatMap.mp ht
  obtain ⟨c, hc, hmay⟩ := hfound v hv t htv
  have hrender : Segment.render (replacements tokens) (.token t.toList) = c.factor := by
    rw [Segment.render, lookup_replacements, hc]
    rfl
  rw [hrender]
  rcases hmay with hdefined | ⟨n, rfl, hfinite⟩
  · exact (hsound v hv t htv hname c hdefined).spellsAtom
  · exact Contribution.StandsAlone.spellsAtom (c := .number n) hfinite

theorem nil_not_mem_tokens {report : Report} (h : f.validate unitLimit = .ok report)
    (hvalid : report.valid = true) : [] ∉ f.tokens.map String.toList := by
  intro hmem
  obtain ⟨t, ht, hnil⟩ := List.mem_map.mp hmem
  obtain ⟨v, hv, htv⟩ := List.mem_flatMap.mp ht
  have hid := not_blank_of_valid h hvalid hv
  -- the token starts with the id, which would be empty
  have hprefix := Variable.id_isPrefix_of_mem_tokens htv
  rw [hnil, List.prefix_nil] at hprefix
  rw [isBlankText, hprefix] at hid
  cases hid

/-- A clean report has tried the expression: the sample leaves no name, and a tree. -/
theorem sample_of_clean {report : Report} (h : f.validate unitLimit = .ok report)
    (hclean : report.warnings = []) :
    (substitute f.expression.toList (replacements f.sampleContributions)).unknown = []
      ∧ ∃ t, Tree.ofText (substitute f.expression.toList
          (replacements f.sampleContributions)).text defaultDepth = .ok t := by
  obtain ⟨-, rfl⟩ := validate_eq_ok_iff.mp h
  have hadvice : f.advice = [] := onceBy_eq_nil_iff.mp (List.map_eq_nil_iff.mp hclean)
  have hexpression : f.expressionAdvice = [] := (List.append_eq_nil_iff.mp hadvice).2
  unfold expressionAdvice at hexpression
  split at hexpression
  · cases hexpression
  · simp only at hexpression
    split at hexpression
    · next value hvalue =>
      refine ⟨List.map_eq_nil_iff.mp hexpression, ?_⟩
      obtain ⟨t, ht, -⟩ := bind_eq_ok_iff.mp hvalue
      cases htree : Tree.ofText (substitute f.expression.toList
          (replacements f.sampleContributions)).text defaultDepth with
      | error fault => rw [htree] at ht; cases ht
      | ok t => exact ⟨t, rfl⟩
    · exact absurd hexpression (by simp)

/-- **Every answer leaves an expression**, if the sample does. -/
theorem filledIn_of_clean {report : Report} (h : f.validate unitLimit = .ok report)
    (hvalid : report.valid = true) (hclean : report.warnings = []) (hspaced : Spaced f.stretches)
    (hsound : f.IsSound) (answers : Answers) :
    (f.filledIn answers).unknown = []
      ∧ ∃ t row, Spells (f.filledIn answers).text row ∧ Derives .sum t row := by
  have hnodup := nodup_tokens_of_valid h hvalid
  have hsample : (replacements f.sampleContributions).map (·.1) = f.tokens.map String.toList := by
    rw [keys_replacements, (sampleContributions_eq hnodup).2]
  have hcoerced : (replacements (f.coerced answers).contributions).map (·.1)
      = f.tokens.map String.toList := by
    rw [keys_replacements, coerced, contributions_tokenMap hnodup,
      keys_flatMap_contributions hnodup]
    rfl
  obtain ⟨hunknown, t, ht⟩ := sample_of_clean h hclean
  refine refilled (hsample.trans hcoerced.symm) ?_ ?_ ?_ ?_ hunknown ht
  · rw [hsample]
    exact nil_not_mem_tokens h hvalid
  · rw [hsample]
    exact hspaced
  · rw [hsample]
    exact fun name => spellsAtom_render hsound fun v hv t ht => mayContribute_sample hnodup hv ht
  · rw [hsample]
    exact fun name => spellsAtom_render hsound fun v hv t ht =>
      mayContribute_coerced hnodup answers hv ht

theorem toPrice_ne_malformed (d : Decimal) (fault : SyntaxFault) :
    d.toPrice ≠ .error (.malformed fault) := by
  unfold Decimal.toPrice
  cases d.toInteger? d.widePrecision with
  | none => simp
  | some n => simp

theorem roundedUnder_ne_malformed {answers : Answers} {depth : Nat} {t : Tree} {row : List Symbol}
    (hspells : Spells (f.filledIn answers).text row) (hderives : Derives .sum t row)
    (hdepth : t.nesting ≤ depth) (fault : SyntaxFault) :
    f.roundedUnder answers depth ≠ .error (.malformed fault) := by
  intro h
  rw [roundedUnder, valueUnder, evaluateText_of_spells hspells hderives hdepth] at h
  cases hvalue : t.evaluate with
  | ok value =>
    rw [hvalue] at h
    exact toPrice_ne_malformed value fault h
  | error e =>
    rw [hvalue] at h
    cases e <;> cases h

/-- If the report of a formula is clean, the tokens in its expression are spaced, and whatever its
variables are made to contribute stands alone, then no answers make the expression malformed as long
as its nesting is allowed, and never is a name left over. -/
theorem calculate_of_clean_report {report : Report} (h : f.validate unitLimit = .ok report)
    (hvalid : report.valid = true) (hclean : report.warnings = []) (hspaced : Spaced f.stretches)
    (hsound : f.IsSound) (answers : Answers) (depth : Nat) :
    (textNesting (f.filledIn answers).text ≤ depth →
        ∀ fault, f.calculate answers depth ≠ .error (.evaluation (.malformed fault)))
      ∧ ∀ r, f.calculate answers depth = .ok r → ∀ name, .unknownName name ∉ r.notices := by
  obtain ⟨hunknown, t, row, hspells, hderives⟩ :=
    filledIn_of_clean h hvalid hclean hspaced hsound answers
  refine ⟨fun hdepth fault hfault => ?_, fun r hr name hname => ?_⟩
  · rw [textNesting_of_spells hspells hderives] at hdepth
    exact roundedUnder_ne_malformed hspells hderives hdepth fault
      (roundedUnder_of_calculate_error hfault)
  · obtain ⟨value, rounded, -, -, rfl⟩ := exists_isShown hr
    have hnotices : Notice.unknownName name ∈ f.noticesUnder answers := hname
    rw [noticesUnder, hunknown] at hnotices
    simp at hnotices

/-- A fence along a drive has a price for a garage, and for a length that makes no sense. -/
theorem calculate_of_clean_report_drive :
    (∀ fault, Sample.drive.calculate [("length", .text "-2.5"), ("garage", .bool true)] defaultDepth
        ≠ .error (.evaluation (.malformed fault)))
      ∧ ∀ r, Sample.drive.calculate [("length", .text "-2.5"), ("garage", .bool true)] defaultDepth
          = .ok r → ∀ name, .unknownName name ∉ r.notices := by
  have hreport : Sample.drive.validate defaultUnitLimit
      = .ok (Report.of (Sample.drive.definitionErrors defaultUnitLimit) Sample.drive.advice) :=
    validate_eq_ok_iff.mpr ⟨by decide, rfl⟩
  have hspaced : Spaced Sample.drive.stretches := by decide
  have hsound : Sample.drive.IsSound := by decide
  obtain ⟨hmalformed, hnames⟩ := calculate_of_clean_report hreport (by decide) (by decide) hspaced
    hsound [("length", .text "-2.5"), ("garage", .bool true)] defaultDepth
  exact ⟨hmalformed (by decide), hnames⟩

/-! ## What the sample does not tell -/

/-- The report of a formula is clean, and still these answers make its expression malformed or leave
a name in it. -/
structure Misleads (f : Formula) (answers : Answers) : Prop where
  clean : ∃ report, f.validate defaultUnitLimit = .ok report ∧ report.valid = true
    ∧ report.warnings = []
  outcome : (∃ fault, f.calculate answers defaultDepth = .error (.evaluation (.malformed fault)))
    ∨ ∃ r, f.calculate answers defaultDepth = .ok r ∧ ∃ name, .unknownName name ∈ r.notices

/-- Whether a check of the formula has nothing to say. -/
def passes (f : Formula) : Bool :=
  match f.validate defaultUnitLimit with
  | .ok report => report.valid && report.warnings.isEmpty
  | .error _ => false

/-- Whether the answers make the expression malformed or leave a name in it. -/
def goesWrong (f : Formula) (answers : Answers) : Bool :=
  match f.calculate answers defaultDepth with
  | .error (.evaluation (.malformed _)) => true
  | .error _ => false
  | .ok r => r.notices.any fun
    | .unknownName _ => true
    | _ => false

theorem misleads_of_passes {f : Formula} {answers : Answers}
    (h : f.passes = true ∧ f.goesWrong answers = true) : f.Misleads answers := by
  obtain ⟨hpasses, hwrong⟩ := h
  constructor
  · unfold passes at hpasses
    split at hpasses
    · next report hreport =>
      rw [Bool.and_eq_true, List.isEmpty_iff] at hpasses
      exact ⟨report, hreport, hpasses⟩
    · cases hpasses
  · unfold goesWrong at hwrong
    split at hwrong
    · next fault hfault => exact Or.inl ⟨fault, hfault⟩
    · cases hwrong
    · next r hr =>
      obtain ⟨notice, hnotice, hname⟩ := List.any_eq_true.mp hwrong
      cases notice with
      | unknownName name => exact Or.inr ⟨r, hr, name, hnotice⟩
      | unresolved issue => cases hname
      | misfit issue => cases hname

open Sample in
/-- The sample says nothing about an unchecked box, about boxes that fit each other only while they
are checked, about an option that counts as no number, about a token beside a point or another
token, and about how deep a negative answer nests. -/
theorem calculate_of_clean_report_fails :
    (priced "b" [box "b" "1" "2 +"]).Misleads []
      ∧ (priced "a + b" [box "a" "1 + (2" "0", box "b" "3) * 4" "0"]).Misleads [("a", .bool true)]
      ∧ (priced "m" [menu "m" (.real .nan)]).Misleads [("m", .text "one")]
      ∧ (priced "x.5" [count "x"]).Misleads [("x", .text "2.5")]
      ∧ (priced "éü" [count "é", count "ü"]).Misleads [("é", .int 2), ("ü", .int (-3))]
      ∧ (priced (String.ofList (List.replicate 99 '-' ++ ['x'])) [count "x"]).Misleads
          [("x", .int (-1))] :=
  ⟨misleads_of_passes (by decide), misleads_of_passes (by decide), misleads_of_passes (by decide),
    misleads_of_passes (by decide), misleads_of_passes (by decide),
    misleads_of_passes (by decide +kernel)⟩

end Formula

end Tariff

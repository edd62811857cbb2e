import Tariff.Proofs.Dependencies
import Tariff.Proofs.Pricing
import Tariff.Proofs.Tokens

/-!
# The order of variables

The variables of a valid formula may be listed in any order in which it stays valid: the price and
everything that is told with it are the same (`Formula.calculate_reordered`). Every stage of a price
is compared for the two orders:

* the variables are settled in the same way, because each order settles them and there is only one
  way to do so (`find?_resolve_perm`);
* no contribution takes the place of another, so the maps of contributions hold the same entries
  (`contributions_tokenMap_perm`);
* what is substituted for a token is looked up, and the longest token at a place is searched among
  all of them (`filledIn_reordered`).
-/

namespace Tariff

open Expression

/-! ## Valid formulas -/

namespace Formula

variable {f : Formula} {unitLimit : Int} {report : Report}

theorem danglingConditions_of_valid (h : f.validate unitLimit = .ok report)
    (hvalid : report.valid = true) : danglingConditions f.questions = [] := by
  have hnone : report.errors = [] := List.isEmpty_iff.mp hvalid
  refine (no_isDependency_report_iff (nodup_ids_of_valid h hvalid) h).mp ?_
  simp [hnone]

end Formula

/-! ## Resolution -/

section Resolve

variable {questions others : List Variable} {answers : Answers}

theorem namesEarlier_of_danglingConditions (h : danglingConditions questions = []) :
    Resolution.NamesEarlier [] questions :=
  Resolution.namesEarlier_of_take fun v place hv c hc => by
    simpa using danglingConditions_eq_nil_iff.mp h v place hv c hc

theorem settled_resolve (hids : (questions.map (·.id)).Nodup)
    (h : danglingConditions questions = []) :
    ∀ v ∈ questions, Resolution.Settled answers (resolve questions answers) v := by
  intro v hv
  have hrun : Resolution.Settled answers (Resolution.run answers .start questions) v :=
    Resolution.settled_run (namesEarlier_of_danglingConditions h) hids (by simp) v hv
  exact ⟨hrun.resolved, hrun.visibility⟩

theorem find?_resolved_of_not_mem {id : String} (h : id ∉ questions.map (·.id)) :
    (resolve questions answers).resolved.find? id = none := by
  show (Resolution.run answers .start questions).resolved.find? id = none
  rw [Resolution.find?_resolved_run h]
  rfl

theorem find?_visibility_of_not_mem {id : String} (h : id ∉ questions.map (·.id)) :
    (resolve questions answers).visibility.find? id = none := by
  show (Resolution.run answers .start questions).visibility.find? id = none
  rw [Resolution.find?_visibility_run h]
  rfl

/-- Two orders of the same variables settle them alike. -/
theorem find?_resolve_perm (hperm : questions.Perm others) (hids : (questions.map (·.id)).Nodup)
    (h : danglingConditions questions = []) (hothers : danglingConditions others = [])
    (id : String) :
    (resolve questions answers).resolved.find? id = (resolve others answers).resolved.find? id := by
  have hmem : id ∈ questions.map (·.id) ↔ id ∈ others.map (·.id) := (hperm.map (·.id)).mem_iff
  by_cases hid : id ∈ questions.map (·.id)
  · -- the second run comes to what the first one has settled
    have hsettled : ∀ v ∈ others, Resolution.Settled answers (resolve questions answers) v :=
      fun v hv => settled_resolve hids h v (hperm.mem_iff.mpr hv)
    have hrun : (Resolution.run answers .start others).resolved.find? id
        = (resolve questions answers).resolved.find? id :=
      Resolution.find?_run_of_settled (namesEarlier_of_danglingConditions hothers) hsettled
        (by simp) id (hmem.mp hid)
    exact hrun.symm
  · rw [find?_resolved_of_not_mem hid, find?_resolved_of_not_mem (mt hmem.mpr hid)]

theorem find?_visibility_perm (hperm : questions.Perm others)
    (hids : (questions.map (·.id)).Nodup) (h : danglingConditions questions = [])
    (hothers : danglingConditions others = []) (id : String) :
    (resolve questions answers).visibility.find? id
      = (resolve others answers).visibility.find? id := by
  have hmem : id ∈ questions.map (·.id) ↔ id ∈ others.map (·.id) := (hperm.map (·.id)).mem_iff
  by_cases hid : id ∈ questions.map (·.id)
  · obtain ⟨v, hv, rfl⟩ := List.mem_map.mp hid
    have hids' : (others.map (·.id)).Nodup := (hperm.map (·.id)).nodup_iff.mp hids
    -- a variable is shown by what its conditions find, which does not depend on the order
    have hvisible : v.isVisible (resolve questions answers).resolved
        = v.isVisible (resolve others answers).resolved :=
      Resolution.isVisible_congr fun c _ => find?_resolve_perm hperm hids h hothers c.dependsOn
    rw [(settled_resolve hids h v hv).visibility,
      (settled_resolve hids' hothers v (hperm.mem_iff.mp hv)).visibility, hvisible]
  · rw [find?_visibility_of_not_mem hid, find?_visibility_of_not_mem (mt hmem.mpr hid)]

end Resolve

/-! ## Contributions -/

section Contributions

variable {questions others : List Variable} {effective effective' : OrderedMap Value}

theorem effectiveAnswer_congr (h : ∀ id, effective.find? id = effective'.find? id) :
    effectiveAnswer effective = effectiveAnswer effective' := by
  funext v
  rw [effectiveAnswer, effectiveAnswer, h]

theorem contributions_tokenMap_perm (hperm : questions.Perm others)
    (htokens : (questions.flatMap Variable.tokens).Nodup)
    (h : ∀ id, effective.find? id = effective'.find? id) :
    (tokenMap questions effective).contributions.Perm
      (tokenMap others effective').contributions := by
  have htokens' : (others.flatMap Variable.tokens).Nodup :=
    (hperm.flatMap_right _).nodup_iff.mp htokens
  rw [contributions_tokenMap htokens, contributions_tokenMap htokens', effectiveAnswer_congr h]
  exact hperm.flatMap_right _

theorem issues_tokenMap_perm (hperm : questions.Perm others)
    (h : ∀ id, effective.find? id = effective'.find? id) :
    (tokenMap questions effective).issues.Perm (tokenMap others effective').issues := by
  have hissues : ∀ (qs : List Variable) (e : OrderedMap Value), (tokenMap qs e).issues
      = qs.flatMap fun v => (v.contributions (effectiveAnswer e v)).issues := by
    intro qs e
    show (qs.map _).flatMap Coerced.issues = _
    rw [List.flatMap_map]
    rfl
  rw [hissues, hissues, effectiveAnswer_congr h]
  exact hperm.flatMap_right _

end Contributions

/-! ## Results -/

/-- Two results tell the same, up to the order of variables, tokens and notices. -/
structure PriceResult.SameUpToOrder (r s : PriceResult) : Prop where
  formulaId : r.formulaId = s.formulaId
  price : r.price = s.price
  rounded : r.rounded = s.rounded
  clamped : r.clamped = s.clamped
  value : r.value = s.value
  substituted : r.substituted = s.substituted
  tokens : ∀ t, r.tokens.find? t = s.tokens.find? t
  effective : ∀ id, r.effective.find? id = s.effective.find? id
  visibility : ∀ id, r.resolution.visibility.find? id = s.resolution.visibility.find? id
  warnings : ∀ w, w ∈ r.warnings ↔ w ∈ s.warnings

theorem PriceResult.mem_warnings_iff {r : PriceResult} {w : String} :
    w ∈ r.warnings ↔ w ∈ r.notices.map Notice.message := by
  rw [warnings, List.mem_map, List.mem_map]
  constructor
  · rintro ⟨n, hn, rfl⟩
    exact ⟨n, mem_of_mem_onceBy hn, rfl⟩
  · rintro ⟨n, hn, rfl⟩
    exact exists_mem_onceBy hn List.not_mem_nil

namespace Formula

/-- The two formulas differ in the order of their variables only, and both orders are sound: no id
repeats, no token can be had in two ways, and conditions name earlier variables. -/
structure Reorders (f g : Formula) : Prop where
  same : g = { f with questions := g.questions }
  perm : f.questions.Perm g.questions
  ids : (f.questions.map (·.id)).Nodup
  tokens : (f.questions.flatMap Variable.tokens).Nodup
  inOrder : danglingConditions f.questions = []
  stillInOrder : danglingConditions g.questions = []

section Reorders

variable {f g : Formula} (h : f.Reorders g) {answers : Answers} {depth : Nat}
include h

theorem Reorders.range_eq : g.range = f.range := by
  rw [h.same]

theorem find?_effective_reordered (id : String) :
    (resolve f.questions answers).effective.find? id
      = (resolve g.questions answers).effective.find? id := by
  rw [find?_effective, find?_effective,
    find?_resolve_perm h.perm h.ids h.inOrder h.stillInOrder]

theorem contributions_reordered :
    (f.coerced answers).contributions.Perm (g.coerced answers).contributions :=
  contributions_tokenMap_perm h.perm h.tokens (find?_effective_reordered h)

theorem find?_contributions_reordered (t : String) :
    (f.coerced answers).contributions.find? t = (g.coerced answers).contributions.find? t := by
  refine OrderedMap.find?_perm (contributions_reordered h) ?_ t
  rw [coerced, contributions_tokenMap h.tokens, keys_flatMap_contributions h.tokens]
  exact h.tokens

/-- The expression is filled in alike. -/
theorem filledIn_reordered : f.filledIn answers = g.filledIn answers := by
  have hexpression : g.expression = f.expression := by rw [h.same]
  -- of the tokens at a place the longest is replaced, wherever it stands among them
  have hlookup : ∀ w, (replacements (f.coerced answers).contributions).lookup w
      = (replacements (g.coerced answers).contributions).lookup w := by
    intro w
    have hown := lookup_replacements (f.coerced answers).contributions (String.ofList w)
    have hother := lookup_replacements (g.coerced answers).contributions (String.ofList w)
    rw [String.toList_ofList] at hown hother
    rw [hown, hother, find?_contributions_reordered h]
  rw [filledIn, filledIn, hexpression, substitute_congr hlookup]

/-- The customer is told the same, if perhaps in another order. -/
theorem noticesUnder_reordered : (f.noticesUnder answers).Perm (g.noticesUnder answers) := by
  have hissues : (f.coerced answers).issues.Perm (g.coerced answers).issues :=
    issues_tokenMap_perm h.perm (find?_effective_reordered h)
  -- neither order leaves a condition without its variable
  rw [noticesUnder, noticesUnder, issues_resolve, issues_resolve, h.inOrder, h.stillInOrder,
    filledIn_reordered h]
  exact (hissues.map _).append_right _

theorem resultUnder_reordered (value : Decimal) (rounded : Int) :
    (f.resultUnder answers value rounded).SameUpToOrder (g.resultUnder answers value rounded) where
  formulaId := by rw [h.same]; rfl
  price := congrArg (fun r : PriceRange => (r.clamp rounded).1) h.range_eq.symm
  rounded := rfl
  clamped := congrArg (fun r : PriceRange => (r.clamp rounded).2) h.range_eq.symm
  value := rfl
  substituted := congrArg (fun s : Substituted => String.ofList s.text) (filledIn_reordered h)
  tokens := find?_contributions_reordered h
  effective := find?_effective_reordered h
  visibility := find?_visibility_perm h.perm h.ids h.inOrder h.stillInOrder
  warnings := by
    intro w
    rw [PriceResult.mem_warnings_iff, PriceResult.mem_warnings_iff]
    exact ((noticesUnder_reordered h).map _).mem_iff

/-- The expression being filled in alike, the outcome is the same. -/
theorem Reorders.outcome (answers : Answers) (depth : Nat) :
    (∃ fault, f.calculate answers depth = .error fault
        ∧ g.calculate answers depth = .error fault)
      ∨ ∃ r s, f.calculate answers depth = .ok r ∧ g.calculate answers depth = .ok s
        ∧ r.SameUpToOrder s := by
  rcases calculate_of_filledIn h.range_eq (filledIn_reordered h) depth with hfault
    | ⟨value, rounded, hf, hg⟩
  · exact Or.inl hfault
  · exact Or.inr ⟨_, _, hf, hg, resultUnder_reordered h value rounded⟩

end Reorders

/-- If a formula is valid, and is still valid with its variables in another order, then both give
the same fault for all answers, or two results that tell the same: the same price, rounded number,
end of the range and substituted expression, the same contributions, effective values and
visibility under every token and id, and the same warnings. -/
theorem calculate_reordered {f : Formula} {questions : List Variable}
    (hperm : f.questions.Perm questions) {unitLimit unitLimit' : Int} {report report' : Report}
    (h : f.validate unitLimit = .ok report) (hvalid : report.valid = true)
    (h' : { f with questions }.validate unitLimit' = .ok report') (hvalid' : report'.valid = true)
    (answers : Answers) (depth : Nat) :
    (∃ fault, f.calculate answers depth = .error fault
        ∧ { f with questions }.calculate answers depth = .error fault)
      ∨ ∃ r s, f.calculate answers depth = .ok r
        ∧ { f with questions }.calculate answers depth = .ok s ∧ r.SameUpToOrder s := by
  have hreorders : f.Reorders { f with questions } :=
    { same := rfl
      perm := hperm
      ids := nodup_ids_of_valid h hvalid
      tokens := nodup_tokens_of_valid h hvalid
      inOrder := danglingConditions_of_valid h hvalid
      stillInOrder := danglingConditions_of_valid h' hvalid' }
  exact hreorders.outcome answers depth

/-- Length and height of a wall may be asked in either order. -/
theorem calculate_reordered_wall :
    ∃ r s, Sample.wall.calculate [("length", .int 3), ("height", .int 2)] defaultDepth = .ok r
      ∧ Sample.turnedWall.calculate [("length", .int 3), ("height", .int 2)] defaultDepth = .ok s
      ∧ r.SameUpToOrder s := by
  have hperm : Sample.wall.questions.Perm Sample.turnedWall.questions := List.Perm.swap _ _ _
  have hreport : Sample.wall.validate defaultUnitLimit
      = .ok (Report.of (Sample.wall.definitionErrors defaultUnitLimit) Sample.wall.advice) :=
    validate_eq_ok_iff.mpr ⟨by decide, rfl⟩
  have hturned : Sample.turnedWall.validate defaultUnitLimit
      = .ok (Report.of (Sample.turnedWall.definitionErrors defaultUnitLimit)
          Sample.turnedWall.advice) :=
    validate_eq_ok_iff.mpr ⟨by decide, rfl⟩
  rcases calculate_reordered hperm hreport (by decide) hturned (by decide)
    [("length", .int 3), ("height", .int 2)] defaultDepth with ⟨fault, hfault, -⟩ | hresults
  · have hpriced : (Sample.wall.calculate [("length", .int 3), ("height", .int 2)]
        defaultDepth).isOk = true := by decide
    rw [hfault] at hpriced
    cases hpriced
  · exact hresults

end Formula

end Tariff

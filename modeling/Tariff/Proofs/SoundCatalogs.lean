import Tariff.Catalog.Check
import Tariff.Proofs.Catalog
import Tariff.Proofs.Choices

/-!
# Sound catalogs

A check of a catalog collects what stands in its way: files that do not load, ids that occur again,
and errors of formulas. `Catalog.IsSound` says directly what should be so, and
`Catalog.check_sound_iff` that a check finds nothing exactly then. What it says of ids matters for
everyone who asks for a formula by its id: no file of a sound catalog stands in the way of another
one.

The ids are compared with those seen before in a single pass. That this misses no two equal ids is
the induction in `CatalogCheck.formulaErrors_eq_nil_iff`.
-/

namespace Tariff

/-- A report has no words of errors exactly if it is valid. -/
theorem Report.messages_eq_nil_iff {r : Report} : r.messages = [] ↔ r.valid = true := by
  rw [messages, valid, List.map_eq_nil_iff, List.isEmpty_iff]

/-! ## One pass over the formulas -/

namespace CatalogCheck

variable {unitLimit : Int}

/-- The pass comes to its end exactly if every formula has a report, and these are the reports. -/
theorem validateAll_eq_iff {fs : List Formula} {reports : List (Formula × Report)} :
    validateAll unitLimit fs = (reports, none)
      ↔ List.Forall₂ (fun f e => e.1 = f ∧ f.validate unitLimit = .ok e.2) fs reports := by
  induction fs generalizing reports with
  | nil =>
    rw [validateAll, List.forall₂_nil_left_iff, Prod.mk.injEq]
    exact ⟨fun h => h.1.symm, fun h => ⟨h.symm, rfl⟩⟩
  | cons f fs ih =>
    rw [validateAll]
    cases hreport : f.validate unitLimit with
    | error fault =>
      constructor
      · intro h
        cases h
      · intro h
        cases h with
        | cons hfirst _ => cases hreport.symm.trans hfirst.2
    | ok report =>
      constructor
      · intro h
        obtain ⟨rfl, hstopped⟩ := Prod.mk.inj h
        exact .cons ⟨rfl, hreport⟩ (ih.mp (Prod.ext rfl hstopped))
      · intro h
        cases h with
        | @cons _ e _ rest hfirst hrest =>
          obtain ⟨rfl, hsame⟩ := hfirst
          obtain rfl : report = e.2 := Except.ok.inj (hreport.symm.trans hsame)
          show ((e.1, e.2) :: (validateAll unitLimit fs).1, (validateAll unitLimit fs).2) = _
          rw [ih.mpr hrest]

/-- **Nothing stands in the way exactly if all reports are valid and no id occurs again.** -/
theorem formulaErrors_eq_nil_iff {seen : List String} {reports : List (Formula × Report)} :
    formulaErrors seen reports = []
      ↔ (∀ e ∈ reports, e.1.id ∉ seen ∧ e.2.valid = true) ∧ (reports.map (·.1.id)).Nodup := by
  induction reports generalizing seen with
  | nil => simp [formulaErrors]
  | cons e rest ih =>
    have hid : (if seen.contains e.1.id then
          [e.1.id ++ ": formula id is used by more than one file"] else []) = []
        ↔ e.1.id ∉ seen := by
      split
      · next hseen => simpa using hseen
      · next hseen => simpa using hseen
    rw [formulaErrors, List.append_eq_nil_iff, List.append_eq_nil_iff, hid, List.map_eq_nil_iff,
      Report.messages_eq_nil_iff, ih, List.forall_mem_cons, List.map_cons, List.nodup_cons]
    -- the first id is seen by all that follow
    constructor
    · rintro ⟨hfirst, hrest, hnodup⟩
      refine ⟨⟨hfirst, fun e' he' => ?_⟩, fun hmem => ?_, hnodup⟩
      · obtain ⟨hfresh, hvalid⟩ := hrest e' he'
        exact ⟨fun hseen => hfresh (List.mem_cons_of_mem _ hseen), hvalid⟩
      · obtain ⟨e', he', hsame⟩ := List.mem_map.mp hmem
        apply (hrest e' he').1
        rw [hsame]
        exact List.mem_cons_self
    · rintro ⟨⟨hfirst, hrest⟩, hfresh, hnodup⟩
      refine ⟨hfirst, fun e' he' => ⟨fun hseen => ?_, (hrest e' he').2⟩, hnodup⟩
      rcases List.mem_cons.mp hseen with hsame | hbefore
      · exact hfresh (List.mem_map.mpr ⟨e', he', hsame⟩)
      · exact (hrest e' he').1 hbefore

end CatalogCheck

open CatalogCheck

/-! ## Listings without faults -/

namespace Listing.Accounts

variable {load : String → Except LoadFault Formula} {names : List String} {fs : List Formula}
  {skipped : OrderedMap LoadFault}

/-- No file is skipped exactly if all of them can be loaded. -/
theorem skipped_eq_nil_iff (h : Accounts load names fs skipped) :
    skipped = [] ↔ ∀ name ∈ names, ∃ f, load name = .ok f := by
  have hok : ∀ name, (load name).isOk = true ↔ ∃ f, load name = .ok f := by
    intro name
    cases load name with
    | ok f => exact iff_of_true rfl ⟨f, rfl⟩
    | error fault => exact iff_of_false nofun nofun
  have hlength := h.skipped.length_eq
  rw [← List.length_eq_zero_iff, ← hlength, List.length_eq_zero_iff, List.filter_eq_nil_iff]
  simp [hok]

/-- Then the formulas are those of the files, one by one. -/
theorem forall₂_of_loaded (h : Accounts load names fs skipped)
    (hall : ∀ name ∈ names, ∃ f, load name = .ok f) :
    List.Forall₂ (fun name f => load name = .ok f) names fs := by
  have hformulas := h.formulas
  rwa [List.filter_eq_self.mpr] at hformulas
  intro name hname
  obtain ⟨f, hf⟩ := hall name hname
  rw [hf]
  rfl

end Listing.Accounts

namespace Catalog

/-! ## Checks -/

/-- A catalog that is there, whose definitions all load, with different ids for all formulas and
nothing wrong with any of them. -/
structure IsSound (c : Catalog) (unitLimit : Int) : Prop where
  present : c.entries?.isSome = true
  loads : ∀ name ∈ c.names, ∃ f, c.load name = .ok f
  ids : (c.list.formulas.map (·.id)).Nodup
  valid : ∀ f ∈ c.list.formulas, ∃ report, f.validate unitLimit = .ok report ∧ report.valid = true

variable {c : Catalog} {unitLimit : Int}

/-- A check where there is no catalog. -/
theorem check_of_absent (h : c.entries? = none) : (c.check unitLimit).isSound = false := by
  rw [check, if_pos (Option.isNone_iff_eq_none.mpr h)]
  rfl

/-- A check that comes to its end has looked at every file and every formula. -/
theorem check_of_present (h : c.entries? ≠ none)
    (hends : (c.check unitLimit).stopped? = none) :
    c.list.stopped? = none ∧ (c.check unitLimit).formulas = c.list.formulas
      ∧ ∃ reports,
        List.Forall₂ (fun f e => e.1 = f ∧ f.validate unitLimit = .ok e.2) c.list.formulas reports
        ∧ (c.check unitLimit).errors
          = c.list.skipped.map (fun e => e.1 ++ ": " ++ e.2.message)
            ++ formulaErrors [] reports := by
  rw [check, if_neg fun hnone => h (Option.isNone_iff_eq_none.mp hnone)] at hends ⊢
  cases hstopped : c.list.stopped? with
  | some fault =>
    simp only [hstopped] at hends
    cases hends
  | none =>
    simp only [hstopped] at hends ⊢
    cases hunit : (validateAll unitLimit c.list.formulas).2 with
    | some fault =>
      simp only [hunit] at hends
      cases hends
    | none => exact ⟨trivial, rfl, _, validateAll_eq_iff.mp (Prod.ext rfl hunit), rfl⟩

/-- The pass over the formulas of a check finds nothing exactly if all are valid, with different
ids. -/
theorem formulaErrors_of_validated {fs : List Formula} {reports : List (Formula × Report)}
    (h : List.Forall₂ (fun f e => e.1 = f ∧ f.validate unitLimit = .ok e.2) fs reports) :
    formulaErrors [] reports = []
      ↔ (fs.map (·.id)).Nodup
        ∧ ∀ f ∈ fs, ∃ report, f.validate unitLimit = .ok report ∧ report.valid = true := by
  have hids : reports.map (·.1.id) = fs.map (·.id) := by
    induction h with
    | nil => rfl
    | cons hfirst _ ih => rw [List.map_cons, List.map_cons, ih, hfirst.1]
  have hvalid : (∀ e ∈ reports, e.2.valid = true)
      ↔ ∀ f ∈ fs, ∃ report, f.validate unitLimit = .ok report ∧ report.valid = true := by
    clear hids
    induction h with
    | nil => simp
    | @cons f e fs reports hfirst _ ih =>
      have hreport : e.2.valid = true
          ↔ ∃ report, f.validate unitLimit = .ok report ∧ report.valid = true := by
        simp [hfirst.2]
      rw [List.forall_mem_cons, List.forall_mem_cons, ih, hreport]
  rw [formulaErrors_eq_nil_iff, hids, ← hvalid, and_comm]
  simp

/-- A formula of a catalog that is listed to its end is found by its id, if no other one has it. -/
theorem formula?_of_nodup (hends : c.list.stopped? = none)
    (hids : (c.list.formulas.map (·.id)).Nodup) {f : Formula} (hf : f ∈ c.list.formulas) :
    c.formula? f.id = .ok (some f) := by
  have hresult : c.list.result = .ok c.list.formulas :=
    Listing.result_eq_ok_iff.mpr ⟨hends, rfl⟩
  have hfind : c.list.formulas.find? (·.id == f.id) = some f := (find?_key_iff hids hf).mpr rfl
  rw [formula?, hresult]
  exact congrArg Except.ok hfind

/-- **A check succeeds exactly for a sound catalog**, if it comes to its end. Then the formulas that
it gives are those of the definitions, in the order of their names, and each of them is what is
found under its id. -/
theorem check_sound_iff (c : Catalog) (unitLimit : Int)
    (hends : (c.check unitLimit).stopped? = none) :
    ((c.check unitLimit).isSound = true ↔ c.IsSound unitLimit)
      ∧ ((c.check unitLimit).isSound = true →
        List.Forall₂ (fun name f => c.load name = .ok f) c.names (c.check unitLimit).formulas
          ∧ ∀ f ∈ (c.check unitLimit).formulas, c.formula? f.id = .ok (some f)) := by
  by_cases hentries : c.entries? = none
  · have hfails : (c.check unitLimit).isSound = false := check_of_absent hentries
    rw [hfails]
    refine ⟨iff_of_false nofun fun hsound => ?_, nofun⟩
    have hpresent := hsound.present
    rw [hentries] at hpresent
    cases hpresent
  · obtain ⟨hlisted, hformulas, reports, hreports, herrors⟩ := check_of_present hentries hends
    have hclear : ∀ name ∈ c.names, LoadFault.obstacle? (c.load name) = none := by
      intro name hname
      exact obstacle?_eq_none_iff.mpr (stopped?_eq_none_iff.mp hlisted name hname)
    have haccounts : Listing.Accounts c.load c.names c.list.formulas c.list.skipped :=
      Listing.accounts_ofNames hclear
    have hsound : (c.check unitLimit).isSound = true ↔ c.IsSound unitLimit := by
      rw [isSound, herrors, List.isEmpty_iff, List.append_eq_nil_iff, List.map_eq_nil_iff,
        haccounts.skipped_eq_nil_iff, formulaErrors_of_validated hreports]
      constructor
      · rintro ⟨hloads, hids, hvalid⟩
        exact ⟨Option.isSome_iff_ne_none.mpr hentries, hloads, hids, hvalid⟩
      · intro h
        exact ⟨h.loads, h.ids, h.valid⟩
    refine ⟨hsound, fun hsucceeds => ?_⟩
    have h := hsound.mp hsucceeds
    rw [hformulas]
    exact ⟨haccounts.forall₂_of_loaded h.loads, fun f hf => formula?_of_nodup hlisted h.ids hf⟩

/-- A catalog of two definitions, the second of which tells its own id. -/
def paired : Catalog where
  path := ⟨"", ["formulas"]⟩
  entries? := some [("deck.json", .file (octetsOf "\x7b\"formula\": \"2\"\x7d")),
    ("fence.json", .file (octetsOf "\x7b\"id\": \"wall\", \"formula\": \"1\"\x7d")),
    ("notes.txt", .file [])]

/-- Both are sound, and they are found as `deck` and as `wall`. -/
theorem check_sound_iff_paired :
    paired.IsSound Formula.defaultUnitLimit
      ∧ List.Forall₂ (fun name f => paired.load name = .ok f) ["deck.json", "fence.json"]
        (paired.check Formula.defaultUnitLimit).formulas
      ∧ (paired.check Formula.defaultUnitLimit).formulas.map (·.id) = ["deck", "wall"]
      ∧ ∀ f ∈ (paired.check Formula.defaultUnitLimit).formulas,
        paired.formula? f.id = .ok (some f) := by
  -- the names are sorted already, so that their order does not have to be computed
  have hnames : paired.names = ["deck.json", "fence.json"] :=
    List.mergeSort_of_pairwise (by decide)
  have hlist : paired.list = Listing.ofNames paired.load ["deck.json", "fence.json"] := by
    rw [list, hnames]
    rfl
  have hcheck : ((paired.check Formula.defaultUnitLimit).stopped?.isNone
      && (paired.check Formula.defaultUnitLimit).isSound
      && (paired.check Formula.defaultUnitLimit).formulas.map (·.id)
          == ["deck", "wall"]) = true := by
    rw [check, hlist]
    decide +kernel
  rw [Bool.and_eq_true, Bool.and_eq_true, Option.isNone_iff_eq_none, beq_iff_eq] at hcheck
  obtain ⟨⟨hends, hsucceeds⟩, hids⟩ := hcheck
  obtain ⟨hsound, hfound⟩ := check_sound_iff paired Formula.defaultUnitLimit hends
  obtain ⟨hloads, hfind⟩ := hfound hsucceeds
  rw [hnames] at hloads
  exact ⟨hsound.mp hsucceeds, hloads, hids, hfind⟩

end Catalog

end Tariff

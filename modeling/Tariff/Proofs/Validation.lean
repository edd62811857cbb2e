import Tariff.Proofs.Outcome
import Tariff.Validation

/-!
# What a report says

A formula is checked variable by variable. `Formula.definitionErrors` is everything that is found,
with no regard to how the check may fail; `validate_eq_ok_iff` says that the check reports exactly
that, and that units without a length are the only reason for giving no report.

A report keeps each finding once, by its words. Nothing is lost by that: a report is empty only if
nothing was found (`onceBy_eq_nil_iff`), and the words of an error tell its sort
(`DefinitionError.code_eq_of_text_eq`).
-/

namespace Tariff

/-! ## Findings, each once -/

section OnceBy

variable {α : Type u} {key : α → String} {seen : List String} {xs : List α} {x : α}

theorem mem_of_mem_onceBy (h : x ∈ onceBy key seen xs) : x ∈ xs := by
  induction xs generalizing seen with
  | nil => cases h
  | cons y ys ih =>
    rw [onceBy] at h
    split at h
    · exact List.mem_cons_of_mem _ (ih h)
    · rcases List.mem_cons.mp h with rfl | htail
      · exact List.mem_cons_self
      · exact List.mem_cons_of_mem _ (ih htail)

/-- An element is kept, or one before it with the same key. -/
theorem exists_mem_onceBy (h : x ∈ xs) (hseen : key x ∉ seen) :
    ∃ y ∈ onceBy key seen xs, key y = key x := by
  induction xs generalizing seen with
  | nil => cases h
  | cons y ys ih =>
    rw [onceBy]
    by_cases hkey : key y = key x
    · rw [if_neg (by simpa [hkey] using hseen)]
      exact ⟨y, List.mem_cons_self, hkey⟩
    · have hmem : x ∈ ys := (List.mem_cons.mp h).resolve_left (by rintro rfl; exact hkey rfl)
      split
      · exact ih hmem hseen
      · have hfresh : key x ∉ key y :: seen := by
          simp only [List.mem_cons, not_or]
          exact ⟨Ne.symm hkey, hseen⟩
        obtain ⟨z, hz, hzx⟩ := ih hmem hfresh
        exact ⟨z, List.mem_cons_of_mem _ hz, hzx⟩

theorem onceBy_eq_nil_iff : onceBy key [] xs = [] ↔ xs = [] := by
  cases xs with
  | nil => simp [onceBy]
  | cons x xs => simp [onceBy]

end OnceBy

/-! ## The words of an error -/

theorem Defect.closing_not_mem_code (d : Defect) : ']' ∉ d.code.toList := by
  cases d <;> simp only [code] <;> decide

/-- The words of an error start with its sort. -/
theorem DefinitionError.code_eq_of_text_eq {e e' : DefinitionError} (h : e.text = e'.text) :
    e.defect.code = e'.defect.code := by
  have hcode : ∀ e : DefinitionError,
      (e.text.toList.drop 1).takeWhile (· != ']') = e.defect.code.toList := by
    intro e
    have hkeep : ∀ c ∈ e.defect.code.toList, (c != ']') = true := by
      intro c hc
      rw [bne_iff_ne]
      rintro rfl
      exact e.defect.closing_not_mem_code hc
    simp only [DefinitionError.text, String.toList_append, List.append_assoc]
    show (e.defect.code.toList ++ (']' :: _)).takeWhile (· != ']') = _
    rw [List.takeWhile_append_of_pos hkeep]
    simp
  rw [← String.toList_inj, ← hcode e, ← hcode e', h]

/-! ## Everything that is wrong -/

/-- What is wrong with a variable on its own and among the others. A unit without a length is not
too long. -/
def Variable.ownDefects (v : Variable) (others : List Variable) (unitLimit : Int) : List Defect :=
  (if Text.isBlankText v.name then [.emptyName] else [])
    ++ v.idDefects others
    ++ (if !v.unit.isVoid && unitLimit < (v.unitLength?.getD 0 : Nat) then [.longUnit unitLimit]
      else [])
    ++ v.rangeDefects ++ v.choiceDefects

/-- A unit has a length. -/
def Variable.IsMeasured (v : Variable) : Prop :=
  v.unitLength?.isSome = true

instance (v : Variable) : Decidable v.IsMeasured :=
  inferInstanceAs (Decidable (_ = true))

theorem Variable.validate_eq_ok_iff {v : Variable} {others : List Variable} {unitLimit : Int}
    {errors : List DefinitionError} :
    v.validate others unitLimit = .ok errors
      ↔ v.IsMeasured ∧ (v.ownDefects others unitLimit).map (⟨v.id, ·⟩) = errors := by
  unfold validate IsMeasured ownDefects
  cases v.unitLength? with
  | none => simp
  | some length => simp

namespace Formula

/-- What is wrong with the variable at a place. -/
def defectsAt (f : Formula) (unitLimit : Int) (v : Variable) (place : Nat) : List Defect :=
  v.ownDefects (f.questions.eraseIdx place) unitLimit ++ v.ruleDefects f.questions place

/-- Everything that is wrong with a formula. -/
def definitionErrors (f : Formula) (unitLimit : Int) : List DefinitionError :=
  (f.questions.zipIdx.flatMap fun e => (f.defectsAt unitLimit e.1 e.2).map (⟨e.1.id, ·⟩))
    ++ f.rangeDefects.map (⟨"", ·⟩)

/-- Everything that is probably not meant in a formula. -/
def advice (f : Formula) : List Advice :=
  (f.questions.zipIdx.flatMap fun e => e.1.ruleAdvice f.questions e.2) ++ f.expressionAdvice

theorem variableErrors_eq_ok_iff {f : Formula} {unitLimit : Int} {v : Variable} {place : Nat}
    {errors : List DefinitionError} :
    f.variableErrors unitLimit v place = .ok errors
      ↔ v.IsMeasured ∧ (f.defectsAt unitLimit v place).map (⟨v.id, ·⟩) = errors := by
  unfold variableErrors defectsAt
  rw [bind_eq_ok_iff, List.map_append]
  constructor
  · rintro ⟨own, hown, h⟩
    obtain ⟨hmeasured, rfl⟩ := Variable.validate_eq_ok_iff.mp hown
    exact ⟨hmeasured, Except.ok.inj h⟩
  · rintro ⟨hmeasured, rfl⟩
    exact ⟨_, Variable.validate_eq_ok_iff.mpr ⟨hmeasured, rfl⟩, rfl⟩

/-- **A check reports everything that is wrong**, and gives no report only if a unit has no
length. -/
theorem validate_eq_ok_iff {f : Formula} {unitLimit : Int} {report : Report} :
    f.validate unitLimit = .ok report
      ↔ (∀ v ∈ f.questions, v.IsMeasured)
        ∧ Report.of (f.definitionErrors unitLimit) f.advice = report := by
  have hmeasured : (∀ e ∈ f.questions.zipIdx, e.1.IsMeasured)
      ↔ ∀ v ∈ f.questions, v.IsMeasured := by
    constructor
    · intro h v hv
      obtain ⟨place, hplace, rfl⟩ := List.getElem_of_mem hv
      exact h (_, place) (List.mk_mem_zipIdx_iff_getElem?.mpr (List.getElem?_eq_getElem hplace))
    · intro h e he
      exact h e.1 (List.fst_mem_of_mem_zipIdx he)
  unfold validate
  rw [bind_eq_ok_iff]
  constructor
  · rintro ⟨errors, herrors, h⟩
    obtain ⟨hall, rfl⟩ := (mapM_eq_ok_iff_map fun _ _ _ => variableErrors_eq_ok_iff).mp herrors
    exact ⟨hmeasured.mp hall, Except.ok.inj h⟩
  · rintro ⟨hall, rfl⟩
    exact ⟨_, (mapM_eq_ok_iff_map fun _ _ _ => variableErrors_eq_ok_iff).mpr
      ⟨hmeasured.mpr hall, rfl⟩, rfl⟩

/-- A report is valid exactly if nothing is wrong. -/
theorem valid_iff_definitionErrors {f : Formula} {unitLimit : Int} {report : Report}
    (h : f.validate unitLimit = .ok report) :
    report.valid = true ↔ f.definitionErrors unitLimit = [] := by
  obtain ⟨-, rfl⟩ := validate_eq_ok_iff.mp h
  show (onceBy DefinitionError.text [] (f.definitionErrors unitLimit)).isEmpty = true ↔ _
  rw [List.isEmpty_iff, onceBy_eq_nil_iff]

/-- Nothing is wrong with any variable of a formula whose report is valid. -/
theorem defectsAt_of_valid {f : Formula} {unitLimit : Int} {report : Report}
    (h : f.validate unitLimit = .ok report) (hvalid : report.valid = true) {place : Nat}
    {v : Variable} (hv : f.questions[place]? = some v) : f.defectsAt unitLimit v place = [] := by
  have hvariables := (List.append_eq_nil_iff.mp ((valid_iff_definitionErrors h).mp hvalid)).1
  have hplace := List.flatMap_eq_nil_iff.mp hvariables (v, place)
    (List.mk_mem_zipIdx_iff_getElem?.mpr hv)
  exact List.map_eq_nil_iff.mp hplace

/-- Nor is anything wrong with its range of prices. -/
theorem rangeDefects_of_valid {f : Formula} {unitLimit : Int} {report : Report}
    (h : f.validate unitLimit = .ok report) (hvalid : report.valid = true) : f.rangeDefects = [] :=
  List.map_eq_nil_iff.mp (List.append_eq_nil_iff.mp ((valid_iff_definitionErrors h).mp hvalid)).2

/-- What is not meant is a warning, by its words. -/
theorem message_mem_warnings {f : Formula} {unitLimit : Int} {report : Report}
    (h : f.validate unitLimit = .ok report) {a : Advice} (ha : a ∈ f.advice) :
    a.message ∈ report.warnings := by
  obtain ⟨-, rfl⟩ := validate_eq_ok_iff.mp h
  obtain ⟨kept, hkept, hsame⟩ := exists_mem_onceBy ha List.not_mem_nil
  exact List.mem_map.mpr ⟨kept, hkept, hsame⟩

end Formula

end Tariff

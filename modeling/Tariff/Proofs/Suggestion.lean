import Tariff.Catalog
import Tariff.Proofs.Dependencies
import Tariff.Proofs.Identifier
import Tariff.Proofs.Tokens

/-!
# Suggested ids

A designer who adds a variable to a formula is offered an id for it. The id is made to differ from
those in use, while the check of a formula asks for more: no id may start with another one. So what
is said of a formula that takes up a suggestion is this (`Formula.validate_suggested`): nothing is
wrong with it but collisions between the suggested id and the others, and there are none exactly if
the id that the suggestion starts from collides with none.

The proof compares the check of a formula with that of the formula with one more variable at its
end. All that was found before is found again, and the only new findings are the collisions with the
new id (`Formula.definitionErrors_withQuestion`).
-/

namespace Tariff

open Expression

/-! ## One more variable -/

/-- A question for a number, with nothing said about it but its id and its name. -/
def Variable.plainNumber (id name : String) : Variable where
  id := id
  name := name
  kind := .number
  unit := .null
  choices := []
  min? := none
  max? := none
  step? := none
  checked := "1"
  unchecked := "0"
  allowsSeveral := false
  rule? := none
  prefilled := .null
  connection := .null

/-- A formula that asks one more question at its end. -/
def Formula.withQuestion (f : Formula) (w : Variable) : Formula :=
  { f with questions := f.questions ++ [w] }

namespace Variable

/-! ## Collisions -/

/-- What is wrong with the id of a variable because of one that may start with it. -/
def collisions (v w : Variable) : List Defect :=
  if v.id.toList <+: w.id.toList ∨ w.id.toList <+: v.id.toList then [.prefixCollision v.id w.id]
  else []

theorem collisions_eq_nil_iff {v w : Variable} : v.collisions w = [] ↔ Apart v w := by
  rw [collisions, Apart, ← not_or]
  split
  · next h => simp [h]
  · next h => simp [h]

theorem mem_collisions {v w : Variable} {d : Defect} (h : d ∈ v.collisions w) :
    d = .prefixCollision v.id w.id := by
  rw [collisions] at h
  split at h
  · exact List.mem_singleton.mp h
  · cases h

/-- Among variables with other ids, only collisions are wrong with an id that is not blank. -/
theorem idDefects_eq_collisions {v : Variable} {others : List Variable}
    (hblank : Text.isBlankText v.id = false) (hother : ∀ o ∈ others, o.id ≠ "" ∧ o.id ≠ v.id) :
    v.idDefects others = others.flatMap v.collisions := by
  rw [idDefects, if_neg (by simp [hblank])]
  -- empty ids are left out and equal ones reported as duplicates, and there are none of either
  induction others with
  | nil => rfl
  | cons o others ih =>
    obtain ⟨⟨hempty, hne⟩, hrest⟩ := List.forall_mem_cons.mp hother
    rw [List.filter_cons_of_pos (by simpa using hempty), List.flatMap_cons, ← ih hrest, collisions]
    simp only [Bool.or_eq_true, List.isPrefixOf_iff_prefix]
    by_cases hcollide : v.id.toList <+: o.id.toList ∨ o.id.toList <+: v.id.toList
    · rw [List.filterMap_cons_some (by rw [if_neg hne, if_pos hcollide]), if_pos hcollide]
      rfl
    · rw [List.filterMap_cons_none (by rw [if_neg hne, if_neg hcollide]), if_neg hcollide]
      rfl

/-- One more variable adds its collisions. -/
theorem idDefects_append {v w : Variable} {others : List Variable}
    (h : v.idDefects others = []) (hempty : w.id ≠ "") (hne : w.id ≠ v.id) :
    v.idDefects (others ++ [w]) = v.collisions w := by
  have hblank := not_blank_of_idDefects h
  have hone : v.idDefects [w] = [w].flatMap v.collisions :=
    idDefects_eq_collisions hblank (by simp [hempty, hne])
  rw [idDefects, if_neg (by simp [hblank])] at h hone ⊢
  rw [List.filter_append, List.filterMap_append, h, List.nil_append, hone]
  simp

theorem not_blank_of_ownDefects {v : Variable} {others : List Variable} {unitLimit : Int}
    (h : v.ownDefects others unitLimit = []) : Text.isBlankText v.id = false := by
  simp only [ownDefects, List.append_eq_nil_iff] at h
  exact not_blank_of_idDefects h.1.1.1.2

/-- Nothing is wrong with a plain number whose id and name are not blank. -/
theorem ownDefects_plainNumber {id name : String} (hid : Text.isBlankText id = false)
    (hname : Text.isBlankText name = false) (unitLimit : Int) :
    (plainNumber id name).ownDefects [] unitLimit = [] := by
  have hids : (plainNumber id name).idDefects [] = [] := idDefects_eq_collisions hid (by simp)
  rw [ownDefects, hids]
  simp [plainNumber, hname, rangeDefects, choiceDefects, Value.isVoid, Kind.hasRange,
    Kind.hasOptions]

/-! ## Rules -/

/-- A rule that was sound stays so: its conditions name the same earlier variables. -/
theorem ruleDefects_append {v w : Variable} {questions : List Variable} {place : Nat}
    (hids : ((questions ++ [w]).map (·.id)).Nodup) (hplace : place ≤ questions.length)
    (h : v.ruleDefects questions place = []) : v.ruleDefects (questions ++ [w]) place = [] := by
  have hbefore : (questions.map (·.id)).Nodup := by
    rw [List.map_append] at hids
    exact (List.nodup_append.mp hids).1
  unfold ruleDefects at h ⊢
  cases hrule : v.activeRule? with
  | none => rfl
  | some rule =>
    rw [hrule] at h
    obtain ⟨hconditions, hfallback⟩ := List.append_eq_nil_iff.mp h
    refine List.append_eq_nil_iff.mpr ⟨List.filterMap_eq_nil_iff.mpr fun c hc => ?_, hfallback⟩
    have hearlier := List.filterMap_eq_nil_iff.mp hconditions c hc
    rw [conditionDefect?_eq_none_iff hbefore] at hearlier
    -- the variables before this place are the same in the longer row
    rw [conditionDefect?_eq_none_iff hids, List.take_append_of_le_length hplace]
    exact hearlier

end Variable

namespace Formula

variable {f : Formula} {unitLimit : Int} {report : Report} {w : Variable}

/-! ## What is wrong with one more variable -/

/-- A variable in which nothing was wrong may collide with the new one. -/
theorem defectsAt_withQuestion {v : Variable} {place : Nat}
    (h : f.defectsAt unitLimit v place = []) (hv : f.questions[place]? = some v)
    (hids : ((f.questions ++ [w]).map (·.id)).Nodup) (hempty : w.id ≠ "") :
    (f.withQuestion w).defectsAt unitLimit v place = v.collisions w := by
  have hplace : place < f.questions.length := (List.getElem?_eq_some_iff.mp hv).1
  have hne : w.id ≠ v.id := by
    rw [List.map_append] at hids
    have hmem : v.id ∈ f.questions.map (·.id) :=
      List.mem_map.mpr ⟨v, List.mem_iff_getElem?.mpr ⟨place, hv⟩, rfl⟩
    exact fun heq => (List.nodup_append.mp hids).2.2 _ hmem _ (by simp) heq.symm
  simp only [defectsAt, Variable.ownDefects, List.append_eq_nil_iff] at h
  obtain ⟨⟨⟨⟨⟨hname, hid⟩, hunit⟩, hrange⟩, hchoice⟩, hrule⟩ := h
  -- only the check of the id looks at the variables behind this one
  show v.ownDefects ((f.questions ++ [w]).eraseIdx place) unitLimit
    ++ v.ruleDefects (f.questions ++ [w]) place = _
  rw [List.eraseIdx_append_of_lt_length hplace,
    Variable.ruleDefects_append hids (Nat.le_of_lt hplace) hrule, Variable.ownDefects, hname, hunit,
    hrange, hchoice, Variable.idDefects_append hid hempty hne]
  simp

/-- A variable in which nothing is wrong on its own may collide with those before it. -/
theorem defectsAt_last (hown : w.ownDefects [] unitLimit = []) (hrule : w.activeRule? = none)
    (hother : ∀ v ∈ f.questions, v.id ≠ "" ∧ v.id ≠ w.id) :
    (f.withQuestion w).defectsAt unitLimit w f.questions.length
      = f.questions.flatMap w.collisions := by
  simp only [Variable.ownDefects, List.append_eq_nil_iff] at hown
  obtain ⟨⟨⟨⟨hname, hid⟩, hunit⟩, hrange⟩, hchoice⟩ := hown
  have hnone : w.ruleDefects (f.questions ++ [w]) f.questions.length = [] := by
    rw [Variable.ruleDefects, hrule]
  show w.ownDefects ((f.questions ++ [w]).eraseIdx f.questions.length) unitLimit
    ++ w.ruleDefects (f.questions ++ [w]) f.questions.length = _
  rw [List.eraseIdx_append_of_length_le (Nat.le_refl _), hnone, Variable.ownDefects, hname, hunit,
    hrange, hchoice]
  simp [Variable.idDefects_eq_collisions (Variable.not_blank_of_idDefects hid) hother]

/-- **Nothing else is wrong with a valid formula that takes up a sound variable of a new id** than
that the id may collide with the others. -/
theorem definitionErrors_withQuestion (h : f.validate unitLimit = .ok report)
    (hvalid : report.valid = true) (hown : w.ownDefects [] unitLimit = [])
    (hrule : w.activeRule? = none) (hnew : w.id ∉ f.questions.map (·.id)) :
    (f.withQuestion w).definitionErrors unitLimit
      = (f.questions.flatMap fun v => (v.collisions w).map (⟨v.id, ·⟩))
        ++ (f.questions.flatMap w.collisions).map (⟨w.id, ·⟩) := by
  have hwid : w.id ≠ "" := Text.ne_empty_of_not_blank (Variable.not_blank_of_ownDefects hown)
  have hother : ∀ v ∈ f.questions, v.id ≠ "" ∧ v.id ≠ w.id := fun v hv =>
    ⟨Text.ne_empty_of_not_blank (not_blank_of_valid h hvalid hv),
      fun heq => hnew (heq ▸ List.mem_map.mpr ⟨v, hv, rfl⟩)⟩
  have hids : ((f.questions ++ [w]).map (·.id)).Nodup := by
    rw [List.map_append, List.nodup_append]
    refine ⟨nodup_ids_of_valid h hvalid, List.nodup_singleton _, fun a ha b hb heq => ?_⟩
    rw [List.map_singleton, List.mem_singleton] at hb
    exact hnew (hb ▸ heq ▸ ha)
  have hlast := defectsAt_last hown hrule hother
  -- the variables that were there keep their places
  have hbefore : (f.questions.zipIdx.flatMap fun e =>
        ((f.withQuestion w).defectsAt unitLimit e.1 e.2).map fun d => DefinitionError.mk e.1.id d)
      = f.questions.flatMap fun v => (v.collisions w).map (⟨v.id, ·⟩) := by
    calc _ = f.questions.zipIdx.flatMap fun e =>
            (e.1.collisions w).map fun d => DefinitionError.mk e.1.id d := by
          refine List.flatMap_congr fun e he => ?_
          have hv := List.mk_mem_zipIdx_iff_getElem?.mp he
          rw [defectsAt_withQuestion (defectsAt_of_valid h hvalid hv) hv hids hwid]
      _ = (f.questions.zipIdx.map Prod.fst).flatMap fun v =>
            (v.collisions w).map (⟨v.id, ·⟩) := by rw [List.flatMap_map]
      _ = _ := by rw [List.zipIdx_map_fst]
  show (f.questions ++ [w]).zipIdx.flatMap _ ++ f.rangeDefects.map _ = _
  rw [rangeDefects_of_valid h hvalid, List.zipIdx_append, List.flatMap_append, hbefore]
  simp [hlast]

/-! ## Taking up a suggestion -/

/-- No id of the formula starts with an id, or the other way round. -/
def HasRoomFor (f : Formula) (id : String) : Prop :=
  ∀ v ∈ f.questions, ¬ v.id.toList <+: id.toList ∧ ¬ id.toList <+: v.id.toList

instance (f : Formula) (id : String) : Decidable (f.HasRoomFor id) :=
  inferInstanceAs (Decidable (∀ v ∈ f.questions, _ ∧ _))

/-- What is wrong with a valid formula that takes up a sound variable of a new id. -/
theorem validate_withQuestion (h : f.validate unitLimit = .ok report)
    (hvalid : report.valid = true) (hown : w.ownDefects [] unitLimit = [])
    (hrule : w.activeRule? = none) (hmeasured : w.IsMeasured)
    (hnew : w.id ∉ f.questions.map (·.id)) :
    ∃ extended, (f.withQuestion w).validate unitLimit = .ok extended
      ∧ (∀ e ∈ extended.errors, ∃ v ∈ f.questions,
          e = ⟨v.id, .prefixCollision v.id w.id⟩ ∨ e = ⟨w.id, .prefixCollision w.id v.id⟩)
      ∧ (extended.valid = true ↔ f.HasRoomFor w.id) := by
  have herrors := definitionErrors_withQuestion h hvalid hown hrule hnew
  have hall : ∀ v ∈ (f.withQuestion w).questions, v.IsMeasured := by
    intro v hv
    rcases List.mem_append.mp hv with hv | hv
    · exact (validate_eq_ok_iff.mp h).1 v hv
    · obtain rfl := List.mem_singleton.mp hv
      exact hmeasured
  have hextended : (f.withQuestion w).validate unitLimit
      = .ok (.of ((f.withQuestion w).definitionErrors unitLimit) (f.withQuestion w).advice) :=
    validate_eq_ok_iff.mpr ⟨hall, rfl⟩
  refine ⟨_, hextended, fun e he => ?_, ?_⟩
  · have hmem := mem_of_mem_onceBy he
    rw [herrors] at hmem
    rcases List.mem_append.mp hmem with hbefore | hlast
    · obtain ⟨v, hv, he⟩ := List.mem_flatMap.mp hbefore
      obtain ⟨d, hd, rfl⟩ := List.mem_map.mp he
      exact ⟨v, hv, Or.inl (by rw [Variable.mem_collisions hd])⟩
    · obtain ⟨d, hd, rfl⟩ := List.mem_map.mp hlast
      obtain ⟨v, hv, hd⟩ := List.mem_flatMap.mp hd
      exact ⟨v, hv, Or.inr (by rw [Variable.mem_collisions hd])⟩
  · rw [valid_iff_definitionErrors hextended, herrors]
    simp only [List.append_eq_nil_iff, List.flatMap_eq_nil_iff, List.map_eq_nil_iff,
      Variable.collisions_eq_nil_iff]
    -- a collision counts for both of the two variables
    exact ⟨fun hapart => hapart.1, fun hroom => ⟨hroom, fun v hv => (hroom v hv).symm⟩⟩

/-- The id that a suggestion starts from: the slug of a name, or a fallback where there is none. -/
def suggestionBase (f : Formula) (name : String) (slugLimit : Int) : String :=
  Identifier.labelBase "variable" name f.questions.length slugLimit

theorem suggestVariableId_eq (f : Formula) (name : String) (slugLimit : Int) :
    suggestVariableId name (some f) slugLimit
      = Identifier.fresh (f.suggestionBase name slugLimit) (f.questions.map (·.id)) := by
  show Identifier.forLabel "variable" name (f.questions.map (·.id)).length _ slugLimit = _
  rw [Identifier.forLabel_eq, List.length_map]
  rfl

theorem suggestVariableId_not_mem (f : Formula) (name : String) (slugLimit : Int) :
    suggestVariableId name (some f) slugLimit ∉ f.questions.map (·.id) := by
  rw [suggestVariableId_eq]
  exact Identifier.fresh_not_mem _ _

theorem suggestVariableId_not_blank (f : Formula) (name : String) (slugLimit : Int) :
    Text.isBlankText (suggestVariableId name (some f) slugLimit) = false := by
  have hword : IsWord "variable".toList := by decide
  rw [suggestVariableId_eq]
  exact Identifier.not_blank_of_isWord
    (Identifier.isWord_fresh (Identifier.isWord_labelBase hword _ _ _) _)

/-- There is room for a suggestion exactly if there is room for what it starts from: a counter is
only put behind an id in use, and does not part the two. -/
theorem hasRoomFor_suggestion_iff (f : Formula) (name : String) (slugLimit : Int) :
    f.HasRoomFor (suggestVariableId name (some f) slugLimit)
      ↔ f.HasRoomFor (f.suggestionBase name slugLimit) := by
  rw [suggestVariableId_eq]
  generalize f.suggestionBase name slugLimit = base
  rcases Identifier.fresh_cases base (f.questions.map (·.id)) with ⟨-, hfresh⟩ | ⟨htaken, -⟩
  · rw [hfresh]
  · obtain ⟨v, hv, rfl⟩ := List.mem_map.mp htaken
    refine ⟨fun hroom => ?_, fun hroom => ?_⟩
    · exact absurd (Identifier.base_isPrefix_fresh _ _) (hroom v hv).1
    · exact absurd List.prefix_rfl (hroom v hv).1

/-- What is wrong with a valid formula that takes up a suggestion. -/
theorem validate_withSuggestion (h : f.validate unitLimit = .ok report)
    (hvalid : report.valid = true) {name : String} (hname : Text.isBlankText name = false)
    (slugLimit : Int) {id : String} (hid : suggestVariableId name (some f) slugLimit = id) :
    ∃ extended, (f.withQuestion (.plainNumber id name)).validate unitLimit = .ok extended
      ∧ (∀ e ∈ extended.errors, ∃ v ∈ f.questions,
          e = ⟨v.id, .prefixCollision v.id id⟩ ∨ e = ⟨id, .prefixCollision id v.id⟩)
      ∧ (extended.valid = true ↔ f.HasRoomFor id) := by
  obtain rfl := hid
  have hblank := suggestVariableId_not_blank f name slugLimit
  exact validate_withQuestion h hvalid (Variable.ownDefects_plainNumber hblank hname unitLimit) rfl
    rfl (suggestVariableId_not_mem f name slugLimit)

/-- The suggested id for a new variable of a valid formula is not blank and not in use. Nothing is
wrong with the formula that asks for a number of that id, under any name that is not blank, but that
the id starts with one in use or the other way round. Nothing at all is wrong exactly if this is the
case with none, for the suggestion or, what is the same, for the slug of the name. -/
theorem validate_suggested (h : f.validate unitLimit = .ok report) (hvalid : report.valid = true)
    {name : String} (hname : Text.isBlankText name = false) (slugLimit : Int) :
    ∃ id, suggestVariableId name (some f) slugLimit = id
      ∧ Text.isBlankText id = false ∧ id ∉ f.questions.map (·.id)
      ∧ ∃ extended, (f.withQuestion (.plainNumber id name)).validate unitLimit = .ok extended
        ∧ (∀ e ∈ extended.errors, ∃ v ∈ f.questions,
            e = ⟨v.id, .prefixCollision v.id id⟩ ∨ e = ⟨id, .prefixCollision id v.id⟩)
        ∧ (extended.valid = true ↔ f.HasRoomFor id)
        ∧ (f.HasRoomFor id ↔ f.HasRoomFor (f.suggestionBase name slugLimit)) := by
  obtain ⟨extended, hextended, herrors, hroom⟩ :=
    validate_withSuggestion h hvalid hname slugLimit rfl
  exact ⟨_, rfl, suggestVariableId_not_blank f name slugLimit,
    suggestVariableId_not_mem f name slugLimit, extended, hextended, herrors, hroom,
    hasRoomFor_suggestion_iff f name slugLimit⟩

/-- A fence may ask for its width under the id that is suggested. -/
theorem validate_suggested_width :
    suggestVariableId "Width" (some Sample.fence) Identifier.defaultLength = "width"
      ∧ ∃ extended, (Sample.fence.withQuestion (.plainNumber "width" "Width")).validate
          defaultUnitLimit = .ok extended ∧ extended.valid = true := by
  obtain ⟨report, h, hvalid⟩ := validate_fence
  have hid : suggestVariableId "Width" (some Sample.fence) Identifier.defaultLength = "width" := by
    decide
  have hroom : Sample.fence.HasRoomFor "width" := by decide
  obtain ⟨id, hsuggested, -, -, extended, hextended, -, hiff, -⟩ :=
    validate_suggested h hvalid (by decide : Text.isBlankText "Width" = false)
      Identifier.defaultLength
  obtain rfl := hid.symm.trans hsuggested
  exact ⟨hid, extended, hextended, hiff.mpr hroom⟩

/-- A suggestion may be refused: where the slug of a name is in use, where it goes on from an id in
use, and where an id in use goes on from it. -/
theorem suggestion_refused :
    (∃ report, Sample.fence.validate defaultUnitLimit = .ok report ∧ report.valid = true)
      ∧ ∀ e ∈ [("Length", "length_2"), ("Extra gate", "extra_gate"), ("Ext", "ext")],
        Text.isBlankText e.1 = false
          ∧ suggestVariableId e.1 (some Sample.fence) Identifier.defaultLength = e.2
          ∧ ∃ extended, (Sample.fence.withQuestion (.plainNumber e.2 e.1)).validate
              defaultUnitLimit = .ok extended ∧ extended.valid = false := by
  refine ⟨validate_fence, fun e he => ?_⟩
  obtain ⟨report, h, hvalid⟩ := validate_fence
  have hsuggested : ∀ e ∈ [("Length", "length_2"), ("Extra gate", "extra_gate"), ("Ext", "ext")],
      Text.isBlankText e.1 = false
        ∧ suggestVariableId e.1 (some Sample.fence) Identifier.defaultLength = e.2
        ∧ ¬ Sample.fence.HasRoomFor e.2 := by decide
  obtain ⟨hblank, hid, hcollide⟩ := hsuggested e he
  obtain ⟨extended, hextended, -, hroom⟩ := validate_withSuggestion h hvalid hblank _ hid
  refine ⟨hblank, hid, extended, hextended, ?_⟩
  rw [Bool.eq_false_iff]
  exact fun hextended => hcollide (hroom.mp hextended)

end Formula

end Tariff

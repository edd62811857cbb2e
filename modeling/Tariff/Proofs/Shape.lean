import Tariff.Proofs.OrderedMap
import Tariff.Proofs.Outcome
import Tariff.Service.Body

/-!
# What an accepted body holds

A value that is given a shape fits it (`Shape.fits_of_conform`), as long as every value that takes
the place of a missing field does. So there is nothing left in an accepted definition that could not
be read, apart from names that stand for nothing (`Formula.failsOnly_ofValue`).
-/

namespace Tariff

namespace Service

/-! ## Fitting a shape -/

mutual

/-- Whether a value is what a shape makes of the values it accepts. -/
def Shape.Fits : Shape → Value → Prop
  | .anything, _ => True
  | .text, v => ∃ s, v = .text s
  | .word choices, v => ∃ s ∈ choices, v = .text s
  | .flag, v => ∃ b, v = .bool b
  | .whole, v => ∃ n, v = .int n
  | .real, v => ∃ x, v = .float x
  | .scalar, v => scalar? v = some v
  | .list item, v => ∃ items, v = .list items ∧ ∀ w ∈ items, item.Fits w
  | .map value, v => ∃ fs, v = .record fs ∧ ∀ f ∈ fs, value.Fits f.2
  | .record layout, v => ∃ fs, v = .record fs ∧ layout.Fits fs

/-- Whether fields stand in the order of a layout, each fitting its shape, and only those are left
out that may be missing. -/
def Layout.Fits : Layout → OrderedMap Value → Prop
  | .nil, fs => fs = []
  | .cons name presence shape rest, fs =>
    ((presence = .required → shape.Fits .null) ∧ rest.Fits fs)
      ∨ ∃ v more, fs = (name, v) :: more ∧ shape.Fits v ∧ rest.Fits more

end

mutual

/-- Whether every value that a shape puts in the place of a missing field fits there. -/
def Shape.DefaultsFit : Shape → Prop
  | .list item => item.DefaultsFit
  | .map value => value.DefaultsFit
  | .record layout => layout.DefaultsFit
  | _ => True

/-- Whether every value that a layout puts in the place of a missing field fits there. -/
def Layout.DefaultsFit : Layout → Prop
  | .nil => True
  | .cons _ presence shape rest =>
    (∀ v, presence = .defaulting v → shape.Fits v) ∧ shape.DefaultsFit ∧ rest.DefaultsFit

end

theorem both_eq_ok_iff {α β γ : Type} {f : α → β → γ} {x : Checked α} {y : Checked β} {c : γ} :
    Checked.both f x y = .ok c ↔ ∃ a b, x = .ok a ∧ y = .ok b ∧ f a b = c := by
  cases x <;> cases y <;> simp [Checked.both]

theorem exists_of_mem_all {α β : Type} {f : α → Checked β} {as : List α} {bs : List β}
    (h : Checked.all f as = .ok bs) {b : β} (hb : b ∈ bs) : ∃ a ∈ as, f a = .ok b := by
  induction as generalizing bs with
  | nil =>
    cases h
    cases hb
  | cons a as ih =>
    obtain ⟨first, rest, hfirst, hrest, rfl⟩ := both_eq_ok_iff.mp h
    rcases List.mem_cons.mp hb with rfl | hb
    · exact ⟨a, List.mem_cons_self, hfirst⟩
    · obtain ⟨c, hc, hcb⟩ := ih hrest hb
      exact ⟨c, List.mem_cons_of_mem a hc, hcb⟩

theorem found_eq_ok_iff {v w : Value} {found? : Option Value} :
    found v found? = .ok w ↔ found? = some w := by
  cases found? <;> simp [found]

theorem scalar?_scalar? {v w : Value} (h : scalar? v = some w) : scalar? w = some w := by
  cases v <;> simp only [scalar?, Option.some.injEq, reduceCtorEq] at h <;> subst h <;> rfl

mutual

/-- **What is given a shape fits it.** -/
theorem Shape.fits_of_conform {v w : Value} :
    (shape : Shape) → shape.DefaultsFit → shape.conform v = .ok w → shape.Fits w
  | .anything, _, _ => trivial
  | .text, _, h => by
    cases v <;> cases h
    exact ⟨_, rfl⟩
  | .word choices, _, h => by
    cases v with
    | text s =>
      simp only [Shape.conform] at h
      split at h
      · next hs =>
        cases h
        exact ⟨s, List.contains_iff_mem.mp hs, rfl⟩
      · cases h
    | _ => cases h
  | .flag, _, h => by
    obtain ⟨b, -, rfl⟩ := Option.map_eq_some_iff.mp (found_eq_ok_iff.mp h)
    exact ⟨b, rfl⟩
  | .whole, _, h => by
    obtain ⟨n, -, rfl⟩ := Option.map_eq_some_iff.mp (found_eq_ok_iff.mp h)
    exact ⟨n, rfl⟩
  | .real, _, h => by
    obtain ⟨x, -, rfl⟩ := Option.map_eq_some_iff.mp (found_eq_ok_iff.mp h)
    exact ⟨x, rfl⟩
  | .scalar, _, h => scalar?_scalar? (found_eq_ok_iff.mp h)
  | .list item, hdefaults, h => by
    cases v with
    | list vs =>
      obtain ⟨ws, hws, rfl⟩ := map_eq_ok_iff.mp h
      refine ⟨ws, rfl, fun w hw => ?_⟩
      obtain ⟨v, -, hv⟩ := exists_of_mem_all hws hw
      exact Shape.fits_of_conform item hdefaults hv
    | _ => cases h
  | .map value, hdefaults, h => by
    cases v with
    | record fs =>
      obtain ⟨gs, hgs, rfl⟩ := map_eq_ok_iff.mp h
      refine ⟨gs, rfl, fun g hg => ?_⟩
      obtain ⟨f, -, hf⟩ := exists_of_mem_all hgs hg
      obtain ⟨w, hw, rfl⟩ := map_eq_ok_iff.mp hf
      exact Shape.fits_of_conform value hdefaults hw
    | _ => cases h
  | .record layout, hdefaults, h => by
    cases v with
    | record fs =>
      obtain ⟨gs, hgs, rfl⟩ := map_eq_ok_iff.mp h
      exact ⟨gs, rfl, Layout.fits_of_conform layout hdefaults hgs⟩
    | _ => cases h

/-- **The fields that are given a layout fit it.** -/
theorem Layout.fits_of_conform {given fs : OrderedMap Value} :
    (layout : Layout) → layout.DefaultsFit → layout.conform given = .ok fs → layout.Fits fs
  | .nil, _, h => by
    cases h
    rfl
  | .cons name presence shape rest, hdefaults, h => by
    obtain ⟨hdefault, hshape, hrest⟩ := hdefaults
    obtain ⟨v, more, hfield, hmore, hfs⟩ := both_eq_ok_iff.mp h
    have hmore := Layout.fits_of_conform rest hrest hmore
    -- a missing field is refused, filled in or left out, in this order; null may stand for it
    have hv : presence = .optional ∧ v = .null ∨ shape.Fits v := by
      split at hfield
      · cases hfield
      · next _ _ w =>
        cases hfield
        exact Or.inr (hdefault _ rfl)
      · exact Or.inl ⟨rfl, (Except.ok.inj hfield).symm⟩
      · exact Or.inl ⟨rfl, (Except.ok.inj hfield).symm⟩
      · exact Or.inr (Shape.fits_of_conform shape hshape hfield)
    subst hfs
    cases hnull : v.isNull with
    | true =>
      -- a field without a value is left out
      have hnull : v = .null := by cases v <;> simp_all [Value.isNull]
      refine Or.inl ⟨fun hrequired => ?_, hmore⟩
      rcases hv with ⟨hoptional, -⟩ | hv
      · rw [hrequired] at hoptional
        cases hoptional
      · rw [← hnull]
        exact hv
    | false =>
      refine Or.inr ⟨v, more, rfl, ?_, hmore⟩
      rcases hv with ⟨-, rfl⟩ | hv
      · cases hnull
      · exact hv

end

/-! ## Fields that fit -/

/-- The shapes that a layout has under a name. -/
def Layout.shapesAt (name : String) : Layout → List Shape
  | .nil => []
  | .cons other _ shape rest =>
    if name = other then shape :: rest.shapesAt name else rest.shapesAt name

theorem Layout.exists_shape_of_find? {fs : OrderedMap Value} {name : String} {v : Value} :
    (layout : Layout) → layout.Fits fs → fs.find? name = some v →
      ∃ shape ∈ layout.shapesAt name, shape.Fits v
  | .nil, h, hv => by
    rw [show fs = [] from h] at hv
    cases hv
  | .cons other presence shape rest, h, hv => by
    have hrest : ∀ found ∈ rest.shapesAt name,
        found ∈ Layout.shapesAt name (.cons other presence shape rest) := by
      intro found hfound
      rw [shapesAt]
      split
      · exact List.mem_cons_of_mem shape hfound
      · exact hfound
    rcases h with ⟨-, h⟩ | ⟨w, more, rfl, hw, h⟩
    · obtain ⟨found, hfound, hfits⟩ := exists_shape_of_find? rest h hv
      exact ⟨found, hrest found hfound, hfits⟩
    · rw [OrderedMap.find?_cons] at hv
      split at hv
      · next hname =>
        cases hv
        exact ⟨shape, by rw [shapesAt, if_pos hname]; exact List.mem_cons_self, hw⟩
      · obtain ⟨found, hfound, hfits⟩ := exists_shape_of_find? rest h hv
        exact ⟨found, hrest found hfound, hfits⟩

/-- A field has no value, or one of its shape. -/
theorem Layout.Fits.field {layout : Layout} {fs : OrderedMap Value} {name : String} {shape : Shape}
    (h : layout.Fits fs) (hshape : layout.shapesAt name = [shape]) :
    Definition.field fs name = .null ∨ shape.Fits (Definition.field fs name) := by
  unfold Definition.field
  cases hv : fs.find? name with
  | none => exact Or.inl rfl
  | some v =>
    obtain ⟨found, hfound, hfits⟩ := layout.exists_shape_of_find? h hv
    rw [hshape, List.mem_singleton] at hfound
    subst hfound
    exact Or.inr hfits

theorem defaultsFit_inlineLayout : inlineLayout.DefaultsFit := by
  simp [inlineLayout, formulaLayout, variableLayout, optionLayout, ruleLayout, conditionLayout,
    Layout.ofList, Layout.DefaultsFit, Shape.DefaultsFit, Shape.Fits]

end Service

/-! ## Reading what fits -/

open Definition Service

/-- Whether a fault is that a name stands for nothing. -/
def Definition.Fault.NamesUnknown : Fault → Prop
  | .unknownKind _ | .unknownComparison _ | .unknownConnective _ => True
  | _ => False

theorem failsOnly_number? {p : Fault → Prop} {v : Value} (h : v = .null ∨ Shape.real.Fits v) :
    FailsOnly p (number? v) := by
  rcases h with rfl | ⟨x, rfl⟩
  · exact .ok
  · exact .ok

theorem failsOnly_numberOrZero {p : Fault → Prop} {v : Value}
    (h : v = .null ∨ Shape.real.Fits v) : FailsOnly p (numberOrZero v) :=
  (failsOnly_number? h).map

theorem failsOnly_bound? {p : Fault → Prop} {v : Value} (h : v = .null ∨ Shape.whole.Fits v) :
    FailsOnly p (bound? v) := by
  rcases h with rfl | ⟨n, rfl⟩
  · exact .ok
  · exact .ok

theorem exists_members {item : Shape} {v : Value} (h : v = .null ∨ (Shape.list item).Fits v) :
    ∃ vs, members v = .ok vs ∧ ∀ w ∈ vs, item.Fits w := by
  rcases h with rfl | ⟨vs, rfl, hvs⟩
  · exact ⟨[], rfl, nofun⟩
  · cases vs with
    | nil => exact ⟨[], rfl, nofun⟩
    | cons v vs => exact ⟨v :: vs, rfl, hvs⟩

theorem Choice.failsOnly_ofValue {p : Fault → Prop} {v : Value} {place : Int}
    (h : (Shape.record optionLayout).Fits v) : FailsOnly p (Choice.ofValue v place) := by
  obtain ⟨fs, rfl, hfs⟩ := h
  refine .bind .ok fun r hr => ?_
  cases hr
  refine .bind (failsOnly_numberOrZero (hfs.field rfl)) fun number _ => ?_
  refine .bind (failsOnly_numberOrZero (hfs.field rfl)) fun unselected _ => ?_
  exact .bind (failsOnly_number? (hfs.field rfl)) fun multiplier? _ => .ok

theorem Choice.failsOnly_listOfValues {p : Fault → Prop} {vs : List Value} {place : Nat}
    (h : ∀ v ∈ vs, (Shape.record optionLayout).Fits v) :
    FailsOnly p (Choice.listOfValues place vs) := by
  induction vs generalizing place with
  | nil => exact .ok
  | cons v vs ih =>
    obtain ⟨hv, hvs⟩ := List.forall_mem_cons.mp h
    exact .bind (Choice.failsOnly_ofValue hv) fun c _ => .bind (ih hvs) fun cs _ => .ok

theorem Condition.failsOnly_ofValue (fs : OrderedMap Value) :
    FailsOnly Fault.NamesUnknown (Condition.ofValue (.record fs)) := by
  refine .bind .ok fun r _ => ?_
  dsimp only
  split
  · exact .ok
  · exact .error trivial

theorem Condition.failsOnly_members {α : Type} {stored : Value} {vs : List Value}
    (hstored : members stored = .ok vs) (hvs : ∀ v ∈ vs, ∃ fs, v = .record fs)
    {g : List Condition → α} :
    FailsOnly Fault.NamesUnknown
      (do let conditions ← (← members stored).mapM Condition.ofValue; return g conditions) := by
  rw [hstored]
  refine .bind .ok fun ws hws => ?_
  cases hws
  refine .bind (.mapM fun v hv => ?_) fun conditions _ => .ok
  obtain ⟨fs, rfl⟩ := hvs v hv
  exact Condition.failsOnly_ofValue fs

theorem VisibilityRule.failsOnly_ofValue {v : Value} (h : (Shape.record ruleLayout).Fits v) :
    FailsOnly Fault.NamesUnknown (VisibilityRule.ofValue v) := by
  obtain ⟨fs, rfl, hfs⟩ := h
  refine .bind .ok fun r hr => ?_
  cases hr
  dsimp only
  split
  · exact .error trivial
  · split
    · -- the rule is a condition itself
      refine Condition.failsOnly_members rfl fun v hv => ⟨fs, ?_⟩
      rw [List.mem_singleton.mp hv]
    · have hconditions : field fs "conditions" = .null
          ∨ (Shape.list (.record conditionLayout)).Fits (field fs "conditions") := hfs.field rfl
      obtain ⟨vs, hvs, hfit⟩ := exists_members hconditions
      refine Condition.failsOnly_members hvs fun v hv => ?_
      obtain ⟨gs, rfl, -⟩ := hfit v hv
      exact ⟨gs, rfl⟩

theorem Kind.failsOnly_ofValue (v : Value) : FailsOnly Fault.NamesUnknown (Kind.ofValue v) := by
  unfold Kind.ofValue
  split
  · exact .ok
  · exact .error trivial

theorem Variable.failsOnly_ofValue {v : Value} (h : (Shape.record variableLayout).Fits v) :
    FailsOnly Fault.NamesUnknown (Variable.ofValue v) := by
  obtain ⟨fs, rfl, hfs⟩ := h
  refine .bind .ok fun r hr => ?_
  cases hr
  refine .bind (Kind.failsOnly_ofValue _) fun kind _ => ?_
  have hoptions : field fs "options" = .null
      ∨ (Shape.list (.record optionLayout)).Fits (field fs "options") := hfs.field rfl
  obtain ⟨options, hmembers, hfit⟩ := exists_members hoptions
  refine .bind (.of_eq_ok hmembers) fun vs hvs => ?_
  cases hmembers.symm.trans hvs
  refine .bind (Choice.failsOnly_listOfValues hfit) fun choices _ => ?_
  refine .bind (failsOnly_number? (hfs.field rfl)) fun min? _ => ?_
  refine .bind (failsOnly_number? (hfs.field rfl)) fun max? _ => ?_
  refine .bind (failsOnly_number? (hfs.field rfl)) fun step? _ => ?_
  refine .bind ?_ fun rule? _ => .ok
  have hrule : field fs "conditionalLogic" = .null
      ∨ (Shape.record ruleLayout).Fits (field fs "conditionalLogic") := hfs.field rfl
  cases hgiven : (field fs "conditionalLogic").given? with
  | none => exact .ok
  | some rule =>
    -- a rule that is given is not null, so it is a record
    obtain ⟨hvoid, hsome⟩ := Option.ite_none_left_eq_some.mp hgiven
    rw [← Option.some.inj hsome]
    refine .bind (VisibilityRule.failsOnly_ofValue (hrule.resolve_left fun hnull => ?_))
      fun r _ => .ok
    rw [hnull] at hvoid
    exact hvoid rfl

/-- **A formula in an accepted body can be read**, unless it has a name that stands for nothing. -/
theorem Formula.failsOnly_ofValue {v : Value} (h : (Shape.record formulaLayout).Fits v) :
    FailsOnly Fault.NamesUnknown (Formula.ofValue v) := by
  obtain ⟨fs, rfl, hfs⟩ := h
  refine .bind .ok fun r hr => ?_
  cases hr
  have hvariables : field fs "variables" = .null
      ∨ (Shape.list (.record variableLayout)).Fits (field fs "variables") := hfs.field rfl
  obtain ⟨stored, hmembers, hfit⟩ := exists_members hvariables
  refine .bind (.of_eq_ok hmembers) fun vs hvs => ?_
  cases hmembers.symm.trans hvs
  refine .bind (.mapM fun v hv => Variable.failsOnly_ofValue (hfit v hv)) fun questions _ => ?_
  refine .bind (failsOnly_bound? (hfs.field rfl)) fun min? _ => ?_
  exact .bind (failsOnly_bound? (hfs.field rfl)) fun max? _ => .ok

end Tariff

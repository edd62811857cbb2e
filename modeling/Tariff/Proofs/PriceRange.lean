import Tariff.Proofs.Pricing
import Tariff.Proofs.Rounding
import Tariff.Proofs.Sample
import Tariff.Proofs.Validation

/-!
# Prices in their range

A price is rounded first and moved into the range of its formula afterwards. Rounding keeps the
order of values, and so does a range whose least price is not above its greatest one
(`PriceRange.clamp_mono`), of which the check of a formula makes sure
(`Formula.isOrdered_of_valid`). So the price of a valid formula is in its range, is moved only if it
has to be, and does not fall where the value rises (`Formula.price_in_range`).
-/

namespace Tariff

open Numeral

/-! ## Ranges -/

namespace PriceRange

/-- The least price is not above the greatest one. -/
def IsOrdered (r : PriceRange) : Prop :=
  ∀ least ∈ r.min?, ∀ greatest ∈ r.max?, least ≤ greatest

/-- A price is between the bounds that there are. -/
def Admits (r : PriceRange) (price : ℤ) : Prop :=
  (∀ least ∈ r.min?, least ≤ price) ∧ ∀ greatest ∈ r.max?, price ≤ greatest

/-- A price is strictly beyond the bound at one end. -/
inductive Excludes (r : PriceRange) (price : ℤ) : Bound → ℤ → Prop where
  /-- It is below the least price. -/
  | min {least : ℤ} : r.min? = some least → price < least → Excludes r price .min least
  /-- It is above the greatest price. -/
  | max {greatest : ℤ} : r.max? = some greatest → greatest < price → Excludes r price .max greatest

variable {r : PriceRange} {price bound other : ℤ} {b c : Bound}

theorem clamp_cases (r : PriceRange) (price : ℤ) :
    (r.Admits price ∧ r.clamp price = (price, none))
      ∨ ∃ b bound, r.Excludes price b bound ∧ r.clamp price = (bound, some b) := by
  unfold clamp
  split
  · next least hleast =>
    obtain ⟨hmin, hlow⟩ := Option.filter_eq_some_iff.mp hleast
    exact .inr ⟨.min, least, .min hmin (by simpa using hlow), rfl⟩
  · next hleast =>
    split
    · next greatest hgreatest =>
      obtain ⟨hmax, hhigh⟩ := Option.filter_eq_some_iff.mp hgreatest
      exact .inr ⟨.max, greatest, .max hmax (by simpa using hhigh), rfl⟩
    · next hgreatest =>
      rw [Option.filter_eq_none_iff] at hleast hgreatest
      refine .inl ⟨⟨fun least hmin => ?_, fun greatest hmax => ?_⟩, rfl⟩
      · simpa using hleast least hmin
      · simpa using hgreatest greatest hmax

theorem Excludes.not_admits (h : r.Excludes price b bound) : ¬ r.Admits price := by
  rintro ⟨hmin, hmax⟩
  cases h with
  | min hleast hlow => exact absurd (hmin _ hleast) (Int.not_le.mpr hlow)
  | max hgreatest hhigh => exact absurd (hmax _ hgreatest) (Int.not_le.mpr hhigh)

/-- A price in the range stays as it is. -/
theorem Admits.clamp (h : r.Admits price) : r.clamp price = (price, none) := by
  rcases r.clamp_cases price with ⟨-, hclamp⟩ | ⟨b, bound, hout, -⟩
  · exact hclamp
  · exact absurd h hout.not_admits

theorem clamp_snd_eq_none_iff : (r.clamp price).2 = none ↔ r.Admits price := by
  rcases r.clamp_cases price with ⟨hin, hclamp⟩ | ⟨b, bound, hout, hclamp⟩
  · simp [hclamp, hin]
  · simp [hclamp, hout.not_admits]

section Ordered

variable (hordered : r.IsOrdered)
include hordered

/-- A bound is in the range. -/
theorem Excludes.admits (h : r.Excludes price b bound) : r.Admits bound := by
  cases h with
  | min hleast _ =>
    refine ⟨fun least hmin => ?_, fun greatest hmax => hordered _ hleast _ hmax⟩
    exact (Option.some.inj (hmin.symm.trans hleast)).le
  | max hgreatest _ =>
    refine ⟨fun least hmin => hordered _ hmin _ hgreatest, fun greatest hmax => ?_⟩
    exact (Option.some.inj (hgreatest.symm.trans hmax)).le

/-- No price is beyond both ends. -/
theorem Excludes.unique (h : r.Excludes price b bound) (h' : r.Excludes price c other) :
    b = c ∧ bound = other := by
  cases h with
  | min hleast hlow =>
    cases h' with
    | min hleast' _ => exact ⟨rfl, Option.some.inj (hleast.symm.trans hleast')⟩
    | max hgreatest hhigh => exact absurd (hordered _ hleast _ hgreatest) (by omega)
  | max hgreatest hhigh =>
    cases h' with
    | min hleast hlow => exact absurd (hordered _ hleast _ hgreatest) (by omega)
    | max hgreatest' _ => exact ⟨rfl, Option.some.inj (hgreatest.symm.trans hgreatest')⟩

/-- A range names the bound that a price is beyond, and moves the price there. -/
theorem excludes_iff_clamp : r.Excludes price b bound ↔ r.clamp price = (bound, some b) := by
  rcases r.clamp_cases price with ⟨hin, hclamp⟩ | ⟨c, other, hout, hclamp⟩
  · rw [hclamp]
    exact ⟨fun h => absurd hin h.not_admits, nofun⟩
  · rw [hclamp]
    constructor
    · intro h
      obtain ⟨rfl, rfl⟩ := hout.unique hordered h
      rfl
    · intro h
      cases h
      exact hout

/-- **A price is moved into the range.** -/
theorem admits_clamp (price : ℤ) : r.Admits (r.clamp price).1 := by
  rcases r.clamp_cases price with ⟨hin, hclamp⟩ | ⟨b, bound, hout, hclamp⟩
  · rwa [hclamp]
  · rw [hclamp]
    exact hout.admits hordered

/-- **A range keeps the order of prices.** -/
theorem clamp_mono {p q : ℤ} (hle : p ≤ q) : (r.clamp p).1 ≤ (r.clamp q).1 := by
  -- the bound that one price is moved to is also a bound for where the other one ends up
  rcases r.clamp_cases p with ⟨-, hp⟩ | ⟨_, _, hp, hp'⟩
  · rcases r.clamp_cases q with ⟨-, hq⟩ | ⟨_, _, hq, hq'⟩
    · rwa [hp, hq]
    · rw [hp, hq']
      cases hq with
      | min _ hlow => exact hle.trans hlow.le
      | max hgreatest _ =>
        have hin := admits_clamp hordered p
        rw [hp] at hin
        exact hin.2 _ hgreatest
  · cases hp with
    | min hleast _ =>
      rw [hp']
      exact (admits_clamp hordered q).1 _ hleast
    | max hgreatest hhigh =>
      have hq : r.clamp q = _ :=
        (excludes_iff_clamp hordered).mp (Excludes.max hgreatest (hhigh.trans_le hle))
      rw [hp', hq]

end Ordered

end PriceRange

/-! ## Prices of a valid formula -/

theorem Decimal.eq_nearestAway_of_toPrice {d : Decimal} {n : ℤ} (h : d.toPrice = .ok n) :
    n = nearestAway d.toRat := by
  rw [toPrice_eq, roundHalfAway_eq] at h
  split at h
  · exact (Except.ok.inj h).symm
  · cases h

namespace Formula

variable {f : Formula}

/-- The bounds of a valid formula are in order. -/
theorem isOrdered_of_valid {unitLimit : ℤ} {report : Report}
    (h : f.validate unitLimit = .ok report) (hvalid : report.valid = true) : f.range.IsOrdered := by
  have hrange := rangeDefects_of_valid h hvalid
  intro least hleast greatest hgreatest
  simp only [rangeDefects, Option.mem_def.mp hleast, Option.mem_def.mp hgreatest] at hrange
  by_contra hdisorder
  rw [if_pos (Int.not_le.mp hdisorder)] at hrange
  cases hrange

/-- The price of a result is its value, rounded and then moved into the range. -/
theorem price_of_calculate {answers : Answers} {depth : ℕ} {r : PriceResult}
    (h : f.calculate answers depth = .ok r) :
    r.rounded = nearestAway r.value.toRat
      ∧ f.range.clamp r.rounded = (r.price, r.clamped) := by
  rcases calculate_cases f answers depth with ⟨_, _, hcalculate⟩ | ⟨_, _, _, hcalculate⟩
    | ⟨value, rounded, _, hprice, _, _, hcalculate⟩
  all_goals
    rw [h] at hcalculate
    cases hcalculate
  exact ⟨Decimal.eq_nearestAway_of_toPrice hprice, rfl⟩

/-- **The prices of a valid formula are in its range.** A rounded value that is in the range is the
price itself; any other one is beyond exactly one bound, which is the price and is named. The prices
do not fall where the values rise. -/
theorem price_in_range {unitLimit : ℤ} {report : Report}
    (h : f.validate unitLimit = .ok report) (hvalid : report.valid = true) :
    (∀ answers depth r, f.calculate answers depth = .ok r →
        r.rounded = nearestAway r.value.toRat
          ∧ f.range.Admits r.price
          ∧ (r.clamped = none ↔ f.range.Admits r.rounded)
          ∧ (r.clamped = none → r.price = r.rounded)
          ∧ ∀ b bound, f.range.Excludes r.rounded b bound ↔ r.price = bound ∧ r.clamped = some b)
      ∧ ∀ answers others depth depth' r r', f.calculate answers depth = .ok r →
        f.calculate others depth' = .ok r' → r.value.toRat ≤ r'.value.toRat →
          r.price ≤ r'.price := by
  have hordered := isOrdered_of_valid h hvalid
  refine ⟨fun answers depth r hr => ?_, fun answers others depth depth' r r' hr hr' hle => ?_⟩
  · obtain ⟨hrounded, hclamp⟩ := price_of_calculate hr
    have hin : f.range.Admits r.price := by
      have hmoved := PriceRange.admits_clamp hordered r.rounded
      rwa [hclamp] at hmoved
    have hnone : r.clamped = none ↔ f.range.Admits r.rounded := by
      rw [← PriceRange.clamp_snd_eq_none_iff, hclamp]
    refine ⟨hrounded, hin, hnone, fun hunmoved => ?_, fun b bound => ?_⟩
    · have hsame := hclamp.symm.trans (hnone.mp hunmoved).clamp
      exact congrArg Prod.fst hsame
    · rw [PriceRange.excludes_iff_clamp hordered, hclamp, Prod.mk.injEq]
  · obtain ⟨hrounded, hclamp⟩ := price_of_calculate hr
    obtain ⟨hrounded', hclamp'⟩ := price_of_calculate hr'
    calc r.price = (f.range.clamp r.rounded).1 := by rw [hclamp]
      _ ≤ (f.range.clamp r'.rounded).1 := by
        rw [hrounded, hrounded']
        exact PriceRange.clamp_mono hordered (nearestAway_mono hle)
      _ = r'.price := by rw [hclamp']

/-- A short fence has the least price and a long one the greatest. -/
theorem price_in_range_fence :
    ∃ short long, Sample.boundedFence.calculate [("length", .int 2)] defaultDepth = .ok short
      ∧ Sample.boundedFence.calculate [("length", .int 50)] defaultDepth = .ok long
      ∧ short.price = 100 ∧ short.clamped = some .min
      ∧ long.price = 500 ∧ long.clamped = some .max
      ∧ short.price ≤ long.price := by
  obtain ⟨report, hreport, hvalid⟩ : ∃ report,
      Sample.boundedFence.validate defaultUnitLimit = .ok report ∧ report.valid = true :=
    ⟨_, validate_eq_ok_iff.mpr ⟨by decide, rfl⟩, by decide⟩
  obtain ⟨hrange, hmono⟩ := price_in_range hreport hvalid
  obtain ⟨short, hshort, hfound⟩ := map_eq_ok_iff.mp
    (show (Sample.boundedFence.calculate [("length", .int 2)] defaultDepth).map
      (fun r => (r.rounded, r.value)) = .ok (24, ⟨false, 24, 0⟩) by decide +kernel)
  obtain ⟨long, hlong, hfound'⟩ := map_eq_ok_iff.mp
    (show (Sample.boundedFence.calculate [("length", .int 50)] defaultDepth).map
      (fun r => (r.rounded, r.value)) = .ok (600, ⟨false, 600, 0⟩) by decide +kernel)
  obtain ⟨hwhole, hvalue⟩ := Prod.mk.inj hfound
  obtain ⟨hwhole', hvalue'⟩ := Prod.mk.inj hfound'
  have hle : short.value.toRat ≤ long.value.toRat := by
    rw [hvalue, hvalue']
    norm_num [Decimal.toRat]
  obtain ⟨-, -, -, -, hbound⟩ := hrange _ _ _ hshort
  obtain ⟨-, -, -, -, hbound'⟩ := hrange _ _ _ hlong
  obtain ⟨hprice, hmin⟩ := (hbound .min 100).mp (.min rfl (by rw [hwhole]; decide))
  obtain ⟨hprice', hmax⟩ := (hbound' .max 500).mp (.max rfl (by rw [hwhole']; decide))
  exact ⟨short, long, hshort, hlong, hprice, hmin, hprice', hmax,
    hmono _ _ _ _ _ _ hshort hlong hle⟩

end Formula

end Tariff

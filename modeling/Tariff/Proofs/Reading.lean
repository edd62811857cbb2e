import Tariff.Catalog
import Tariff.Proofs.Expression.Composition
import Tariff.Proofs.Pricing
import Tariff.Proofs.Readable

/-!
# What is read

A value that is read can be stored: its whole numbers are short, and no more lists and records are
open in it than there are levels (`Json.isReadable_of_read`). So can a formula that is loaded
(`Formula.isReadable_of_readDefinition`). And only an escape can name half of a character, so a text
without a backslash is read alike whatever stands for one (`Json.read_half`).

Both are proved along the recursion of the reader, with a theorem for each of its three functions.
-/

namespace Tariff

namespace Json

open Expression Numeral Text

variable {half other : Char}

/-! ## What is read can be stored -/

/-- A number without a point and an exponent is spelled by digits, behind a minus or not. -/
theorem exists_digits_of_numberChars? {cs ns : List Char} (h : numberChars? cs = some (ns, false)) :
    ∃ ds, IsDigits ds ∧ ds ≠ [] ∧ (ns = ds ∨ ns = '-' :: ds) := by
  unfold numberChars? at h
  dsimp only at h
  obtain ⟨whole, hwhole, h⟩ := Option.map_eq_some_iff.mp h
  obtain ⟨hchars, hplain⟩ := Prod.mk.inj h
  obtain ⟨hfraction, hexponent⟩ := Bool.or_eq_false_iff.mp hplain
  rw [Bool.not_eq_false', List.isEmpty_iff] at hfraction hexponent
  rw [hexponent, hfraction, List.append_nil, List.append_nil] at hchars
  refine ⟨whole, ?_, ?_, ?_⟩
  · split at hwhole
    · cases hwhole
      exact List.forall_mem_singleton.mpr (by decide)
    · split at hwhole
      · cases hwhole
        exact fun c hc => List.mem_takeWhile_imp hc
      · cases hwhole
    · cases hwhole
  · rintro rfl
    split at hwhole
    · cases hwhole
    · next heq =>
      split at hwhole
      · next hdigit =>
        rw [heq, List.takeWhile_cons_of_pos hdigit] at hwhole
        cases hwhole
      · cases hwhole
    · cases hwhole
  · split at hchars
    · exact .inr hchars.symm
    · exact .inl hchars.symm

theorem natAbs_scaled_whole (neg : Bool) (c : Nat) :
    ((⟨neg, c, 0⟩ : Decimal).scaled 0).natAbs = c := by
  cases neg with
  | false =>
    show ((c : Int) * 1).natAbs = c
    rw [Int.mul_one, Int.natAbs_natCast]
  | true =>
    show (-((c : Int) * 1)).natAbs = c
    rw [Int.mul_one, Int.natAbs_neg, Int.natAbs_natCast]

/-- A number that is read can be stored. -/
theorem isReadable_of_numberValue {cs ns : List Char} {fractional : Bool}
    (h : numberChars? cs = some (ns, fractional)) (levels : Nat) :
    Yields (fun v => v.isReadable levels = true) (numberValue ns fractional) := by
  unfold numberValue
  cases hread : Decimal.read? ns with
  | none => exact .ok (isReadable_null levels)
  | some d =>
    cases fractional with
    | true => exact .ok (isReadable_float _)
    | false =>
      obtain ⟨ds, hds, hne, hns⟩ := exists_digits_of_numberChars? h
      -- a minus is no digit, so it makes the number no longer
      have hfilter : ds.filter isAsciiDigit = ds := List.filter_eq_self.mpr hds
      obtain ⟨neg, hcount, hvalue⟩ : ∃ neg, (ns.filter isAsciiDigit).length = ds.length
          ∧ Decimal.read? ns = some ⟨neg, ofDigits ds, 0⟩ := by
        rcases hns with rfl | rfl
        · exact ⟨false, congrArg List.length hfilter, read?_whole hds hne⟩
        · exact ⟨true, congrArg List.length hfilter, read?_of_readSign rfl hds hne⟩
      cases hread.symm.trans hvalue
      dsimp only
      rw [if_neg Bool.false_ne_true, hcount]
      split
      · exact .error
      · next hshort =>
        refine .ok ((isReadable_int _).trans (isWritable_iff.mpr ?_))
        rw [natAbs_scaled_whole]
        exact (ofDigits_lt hds).trans_le
          (Nat.pow_le_pow_right (by decide) (Nat.le_of_not_lt hshort))

theorem yields_readScalar (c : Cursor) (levels : Nat) :
    Yields (fun r => r.1.isReadable levels = true) c.readScalar := by
  unfold Cursor.readScalar
  split
  · next hfound =>
    have hliterals : ∀ l ∈ literals, l.2.isReadable 0 = true := by decide
    exact .ok (Value.isReadable_of_zero (hliterals _ (List.mem_of_find?_eq_some hfound)) levels)
  · split
    · next hchars => exact .bind (isReadable_of_numberValue hchars levels) fun v hv => .ok hv
    · exact .error

mutual

/-- A value that is read at some level can be stored there. -/
theorem yields_readValue (half : Char) (fuel levels : Nat) (c : Cursor) :
    Yields (fun r => r.1.isReadable levels = true) (readValue half fuel levels c) := by
  cases fuel with
  | zero => exact .error
  | succ fuel =>
    unfold readValue
    split
    · exact .skip fun r => .ok (isReadable_text _)
    · exact .error
    · dsimp only
      split
      · exact .ok rfl
      · refine .bind (yields_readFields half fuel _ _ _ (List.forall_mem_nil _)) fun r hr => .ok ?_
        exact List.all_eq_true.mpr hr
    · exact .error
    · dsimp only
      split
      · exact .ok rfl
      · refine .bind (yields_readItems half fuel _ _) fun r hr => .ok ?_
        exact List.all_eq_true.mpr hr
    · exact yields_readScalar c _

theorem yields_readItems (half : Char) (fuel levels : Nat) (c : Cursor) :
    Yields (fun r => ∀ v ∈ r.1, v.isReadable levels = true) (readItems half fuel levels c) := by
  cases fuel with
  | zero => exact .error
  | succ fuel =>
    unfold readItems
    refine .bind (yields_readValue half fuel levels c) fun r hr => ?_
    dsimp only
    split
    · exact .ok (List.forall_mem_singleton.mpr hr)
    · refine .bind (yields_readItems half fuel levels _) fun rest hrest => .ok ?_
      exact List.forall_mem_cons.mpr ⟨hr, hrest⟩
    · exact .error

theorem yields_readFields (half : Char) (fuel levels : Nat) (c : Cursor)
    (fields : List (String × Value)) (hfields : ∀ f ∈ fields, f.2.isReadable levels = true) :
    Yields (fun r => ∀ f ∈ r.1, f.2.isReadable levels = true)
      (readFields half fuel levels c fields) := by
  cases fuel with
  | zero => exact .error
  | succ fuel =>
    unfold readFields
    split
    · refine .skip fun ⟨name, c⟩ => ?_
      dsimp only
      split
      · refine .bind (yields_readValue half fuel levels _) fun r hr => ?_
        -- a repeated name has its last value in its first place
        have hmore : ∀ f ∈ OrderedMap.insert fields name r.1, f.2.isReadable levels = true := by
          intro f hf
          rcases OrderedMap.mem_of_mem_insert hf with rfl | hf
          · exact hr
          · exact hfields f hf
        split
        · exact .ok hmore
        · exact yields_readFields half fuel levels _ _ hmore
        · exact .error
      · exact .error
    · exact .error

end

/-- **What is read can be stored.** -/
theorem isReadable_of_read {cs : List Char} {levels : Nat} {v : Value}
    (h : read cs levels half = .ok v) : v.isReadable levels = true := by
  have hread : Yields (fun v => v.isReadable levels = true) (read cs levels half) := by
    refine .mapError ?_
    split
    · exact .error
    · refine .bind (yields_readValue half _ levels _) fun r hr => ?_
      dsimp only
      split
      · exact .ok hr
      · exact .error
  exact hread v h

/-! ## A text without a backslash -/

/-- Whether no backslash is left to be read. -/
def Cursor.IsPlain (c : Cursor) : Prop :=
  '\\' ∉ c.rest

theorem Cursor.IsPlain.advance {c : Cursor} (h : c.IsPlain) (k : Nat) : (c.advance k).IsPlain :=
  fun hmem => h (List.mem_of_mem_drop hmem)

theorem Cursor.IsPlain.skipSpace {c : Cursor} (h : c.IsPlain) : c.skipSpace.IsPlain :=
  h.advance _

/-- Two readings come to the same, and leave no backslash to be read. -/
structure Alike {α : Type} (x y : Except Stop (α × Cursor)) : Prop where
  eq : x = y
  plain : Yields (fun r => r.2.IsPlain) x

namespace Alike

variable {α β : Type} {x y : Except Stop (α × Cursor)}

theorem ok {a : α} {c : Cursor} (hc : c.IsPlain) : Alike (.ok (a, c)) (.ok (a, c)) :=
  ⟨rfl, .ok hc⟩

theorem error {stop : Stop} : Alike (.error stop : Except Stop (α × Cursor)) (.error stop) :=
  ⟨rfl, .error⟩

theorem bind (h : Alike x y) {f g : α × Cursor → Except Stop (β × Cursor)}
    (hfg : ∀ a c, c.IsPlain → Alike (f (a, c)) (g (a, c))) : Alike (x >>= f) (y >>= g) := by
  obtain ⟨rfl, hplain⟩ := h
  cases x with
  | error stop => exact .error
  | ok r => exact hfg r.1 r.2 (hplain r rfl)

end Alike

/-- Half of a character is named by an escape, and an escape starts with a backslash. -/
theorem readText_half (start place skip : Nat) {cs : List Char} (h : '\\' ∉ cs) :
    readText half start place skip cs = readText other start place skip cs := by
  induction cs generalizing place skip with
  | nil => cases skip <;> rfl
  | cons c cs ih =>
    rw [List.mem_cons, not_or] at h
    obtain ⟨hc, hcs⟩ := h
    cases skip with
    | succ skip =>
      rw [readText, readText]
      exact ih _ _ hcs
    | zero =>
      simp only [readText, Ne.symm hc, if_false, ih _ _ hcs]

theorem alike_readText {c : Cursor} (h : c.IsPlain) :
    Alike (c.readText half) (c.readText other) := by
  refine ⟨?_, ?_⟩
  · unfold Cursor.readText
    rw [readText_half _ _ _ h]
  · exact .skip fun r => .ok (h.advance _)

theorem alike_readScalar {c : Cursor} (h : c.IsPlain) : Alike c.readScalar c.readScalar := by
  refine ⟨rfl, ?_⟩
  unfold Cursor.readScalar
  split
  · exact .ok (h.advance _)
  · split
    · exact .skip fun v => .ok (h.advance _)
    · exact .error

mutual

theorem alike_readValue (half other : Char) (fuel levels : Nat) {c : Cursor} (h : c.IsPlain) :
    Alike (readValue half fuel levels c) (readValue other fuel levels c) := by
  cases fuel with
  | zero => exact .error
  | succ fuel =>
    unfold readValue
    split
    · exact .bind (alike_readText (h.advance 1)) fun s c hc => .ok hc
    · exact .error
    · dsimp only
      split
      · exact .ok ((h.advance 1).skipSpace.advance 1)
      · exact .bind (alike_readFields half other fuel _ _ (h.advance 1).skipSpace)
          fun fs c hc => .ok hc
    · exact .error
    · dsimp only
      split
      · exact .ok ((h.advance 1).skipSpace.advance 1)
      · exact .bind (alike_readItems half other fuel _ (h.advance 1).skipSpace)
          fun vs c hc => .ok hc
    · exact alike_readScalar h

theorem alike_readItems (half other : Char) (fuel levels : Nat) {c : Cursor} (h : c.IsPlain) :
    Alike (readItems half fuel levels c) (readItems other fuel levels c) := by
  cases fuel with
  | zero => exact .error
  | succ fuel =>
    unfold readItems
    refine .bind (alike_readValue half other fuel levels h) fun v c hc => ?_
    dsimp only
    split
    · exact .ok (hc.skipSpace.advance 1)
    · exact .bind (alike_readItems half other fuel levels (hc.skipSpace.advance 1).skipSpace)
        fun vs c hc => .ok hc
    · exact .error

theorem alike_readFields (half other : Char) (fuel levels : Nat) {c : Cursor}
    (fields : List (String × Value)) (h : c.IsPlain) :
    Alike (readFields half fuel levels c fields) (readFields other fuel levels c fields) := by
  cases fuel with
  | zero => exact .error
  | succ fuel =>
    unfold readFields
    split
    · refine .bind (alike_readText (h.advance 1)) fun name c hc => ?_
      dsimp only
      split
      · refine .bind (alike_readValue half other fuel levels (hc.skipSpace.advance 1).skipSpace)
          fun v c hc => ?_
        dsimp only
        split
        · exact .ok (hc.skipSpace.advance 1)
        · exact alike_readFields half other fuel levels _ (hc.skipSpace.advance 1).skipSpace
        · exact .error
      · exact .error
    · exact .error

end

/-- **A text without a backslash is read alike** whatever stands for half of a character. -/
theorem read_half {cs : List Char} (h : '\\' ∉ cs) (levels : Nat) (half other : Char) :
    read cs levels half = read cs levels other := by
  have hcursor : (Cursor.skipSpace ⟨0, cs⟩).IsPlain := Cursor.IsPlain.skipSpace h
  unfold read
  rw [(alike_readValue half other _ levels hcursor).eq]

end Json

/-! ## Definitions -/

/-- **A formula that is loaded can be stored.** -/
theorem Formula.isReadable_of_readDefinition {name : String} {octets : List UInt8} {levels : Nat}
    {half : Char} {f : Formula} (h : readDefinition name octets levels half = .ok f) :
    f.isReadable levels = true := by
  obtain ⟨cs, -, h⟩ := bind_eq_ok_iff.mp h
  obtain ⟨value, hvalue, h⟩ := bind_eq_ok_iff.mp h
  have hreadable := Json.isReadable_of_read (mapError_eq_ok_iff.mp hvalue)
  obtain ⟨fields, hfields, h⟩ := bind_eq_ok_iff.mp (mapError_eq_ok_iff.mp h)
  obtain ⟨rfl, hrecord⟩ := yields_fields hreadable fields hfields
  refine isReadable_of_ofValue h ?_
  split
  · cases levels with
    | zero => cases hrecord
    | succ levels =>
      refine List.all_eq_true.mpr fun e he => ?_
      rcases OrderedMap.mem_of_mem_insert he with rfl | he
      · exact isReadable_text _
      · exact List.all_eq_true.mp hrecord e he
  · exact hreadable

theorem readDefinition_half {octets : List UInt8}
    (hplain : ∀ cs, Text.Utf8.decode octets = .ok cs → '\\' ∉ Text.plainLines cs) (name : String)
    (levels : Nat) (half other : Char) :
    readDefinition name octets levels half = readDefinition name octets levels other := by
  unfold readDefinition
  cases hdecode : Text.Utf8.decode octets with
  | error fault => simp only [Except.mapError, bind, Except.bind]
  | ok cs =>
    have hread := Json.read_half (hplain cs hdecode) levels half other
    simp only [Except.mapError, bind, Except.bind, hread]

end Tariff

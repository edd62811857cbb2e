import Mathlib.Data.List.Induction
import Tariff.Expression.Lexeme
import Tariff.Proofs.Outcome

/-!
# Spelled symbols

`Spells cs symbols` says, without positions and without a scanner, that a text is a row of symbols
with blanks anywhere between them and every number as long as it can be. `Lexeme.scan` decides it:

* `scan_iff_spells` — the scan of a text gives these symbols exactly if the text spells them;
* `Spells.append`, `Spells.of_cons_blank`, `Spells.of_append_blank` — texts are joined where no
  number goes on, and blanks at either end may be cut off.
-/

namespace Tariff.Expression

open Text

/-! ## Classes of characters -/

theorem mem_signs_of_ofChar? {c : Char} {s : Symbol} (h : Symbol.ofChar? c = some s) :
    c ∈ ['+', '-', '*', '/', '(', ')'] := by
  unfold Symbol.ofChar? at h
  split at h <;> first | cases h; decide | cases h

theorem isBlank_of_ofChar? {c : Char} {s : Symbol} (h : Symbol.ofChar? c = some s) :
    isBlank c = false := by
  have hsigns : ['+', '-', '*', '/', '(', ')'].all (fun d => !isBlank d) = true := by decide
  simpa using List.all_eq_true.mp hsigns c (mem_signs_of_ofChar? h)

theorem ofChar?_ne_number (c : Char) (ds : List Char) :
    Symbol.ofChar? c ≠ some (.number ds) := by
  intro h
  unfold Symbol.ofChar? at h
  split at h <;> cases h

/-- Blanks. -/
def IsBlanks (bs : List Char) : Prop :=
  ∀ c ∈ bs, isBlank c = true

instance (bs : List Char) : Decidable (IsBlanks bs) :=
  decidable_of_iff (bs.all isBlank = true) List.all_eq_true

theorem IsBlanks.of_cons {b : Char} {bs : List Char} (h : IsBlanks (b :: bs)) : IsBlanks bs :=
  fun c hc => h c (List.mem_cons_of_mem _ hc)

/-- A character of numbers: a digit or a point. -/
def IsNumberChar (c : Char) : Prop :=
  isAsciiDigit c = true ∨ c = '.'

theorem isBlank_of_digit {c : Char} (h : isAsciiDigit c = true) : isBlank c = false := by
  simp only [isAsciiDigit, Bool.and_eq_true, decide_eq_true_eq] at h
  simp only [isBlank, Bool.or_eq_false_iff, Bool.and_eq_false_iff, decide_eq_false_iff_not,
    beq_eq_false_iff_ne, ne_eq]
  omega

theorem IsNumberChar.not_blank {c : Char} (h : IsNumberChar c) : isBlank c = false := by
  rcases h with h | rfl
  · exact isBlank_of_digit h
  · decide

theorem IsNumberChar.not_sign {c : Char} (h : IsNumberChar c) : Symbol.ofChar? c = none := by
  cases hs : Symbol.ofChar? c with
  | none => rfl
  | some s =>
    have hsigns : ['+', '-', '*', '/', '(', ')'].all (fun d => !isAsciiDigit d && d != '.')
        = true := by decide
    obtain ⟨hdigit, hpoint⟩ : isAsciiDigit c = false ∧ c ≠ '.' := by
      simpa using List.all_eq_true.mp hsigns c (mem_signs_of_ofChar? hs)
    rcases h with h | rfl
    · rw [hdigit] at h
      cases h
    · exact absurd rfl hpoint

theorem IsNumberChar.isExpressionChar {c : Char} (h : IsNumberChar c) :
    isExpressionChar c = true := by
  rcases h with h | rfl
  · simp [Expression.isExpressionChar, h]
  · decide

/-! ## Numbers -/

/-- Digits only. -/
def IsDigits (ds : List Char) : Prop :=
  ∀ c ∈ ds, isAsciiDigit c = true

instance (ds : List Char) : Decidable (IsDigits ds) :=
  decidable_of_iff (ds.all isAsciiDigit = true) List.all_eq_true

theorem IsDigits.append {ds fs : List Char} (hds : IsDigits ds) (hfs : IsDigits fs) :
    IsDigits (ds ++ fs) := by
  intro c hc
  rcases List.mem_append.mp hc with hc | hc
  · exact hds c hc
  · exact hfs c hc

theorem isDigits_takeWhile (cs : List Char) : IsDigits (cs.takeWhile isAsciiDigit) :=
  fun c hc => List.all_eq_true.mp List.all_takeWhile c hc

/-- The text of a number: digits with an optional point behind or among them, or a point with
digits behind it. -/
inductive IsNumber : List Char → Prop where
  | whole {ds : List Char} (hds : IsDigits ds) (hne : ds ≠ []) : IsNumber ds
  | pointed {ds fs : List Char} (hds : IsDigits ds)
      (hfs : IsDigits fs) (hne : ds ≠ [] ∨ fs ≠ []) :
      IsNumber (ds ++ '.' :: fs)

/-- A number does not go on into a text: neither a digit follows nor a first point. -/
def NumberEnds (ds cs : List Char) : Prop :=
  ∀ c, cs.head? = some c → isAsciiDigit c = false ∧ (c = '.' → '.' ∈ ds)

theorem IsNumber.ne_nil {ds : List Char} (h : IsNumber ds) : ds ≠ [] := by
  cases h with
  | whole _ hne => exact hne
  | pointed _ _ _ => simp

theorem IsNumber.isNumberChar {ds : List Char} (h : IsNumber ds) : ∀ c ∈ ds, IsNumberChar c := by
  intro c hc
  cases h with
  | whole hds _ => exact Or.inl (hds c hc)
  | pointed hds hfs _ =>
    rcases List.mem_append.mp hc with hc | hc
    · exact Or.inl (hds c hc)
    · rcases List.mem_cons.mp hc with rfl | hc
      · exact Or.inr rfl
      · exact Or.inl (hfs c hc)

theorem takeWhile_digits {ds cs : List Char} (hds : IsDigits ds)
    (hcs : ∀ c, cs.head? = some c → isAsciiDigit c = false) :
    (ds ++ cs).takeWhile isAsciiDigit = ds := by
  rw [List.takeWhile_append_of_pos hds]
  cases cs with
  | nil => simp
  | cons c cs => simp [hcs c rfl]

theorem dropWhile_digits {ds cs : List Char} (hds : IsDigits ds)
    (hcs : ∀ c, cs.head? = some c → isAsciiDigit c = false) :
    (ds ++ cs).dropWhile isAsciiDigit = cs := by
  rw [List.dropWhile_append_of_pos hds]
  cases cs with
  | nil => rfl
  | cons c cs => simp [hcs c rfl]

/-- A point behind the leading digits is read with the digits behind it. -/
theorem numberPrefix?_point {cs rest : List Char} (h : cs.dropWhile isAsciiDigit = '.' :: rest) :
    numberPrefix? cs
      = if (cs.takeWhile isAsciiDigit).isEmpty && (rest.takeWhile isAsciiDigit).isEmpty then none
        else some (cs.takeWhile isAsciiDigit ++ '.' :: rest.takeWhile isAsciiDigit) := by
  rw [numberPrefix?, h]
  rfl

/-- Without a point behind them the leading digits are all that is read. -/
theorem numberPrefix?_whole {cs : List Char}
    (h : ∀ rest, cs.dropWhile isAsciiDigit ≠ '.' :: rest) :
    numberPrefix? cs
      = if (cs.takeWhile isAsciiDigit).isEmpty then none
        else some (cs.takeWhile isAsciiDigit) := by
  rw [numberPrefix?]
  split
  · next rest heq => exact absurd heq (h rest)
  · rfl

/-- A number that does not go on is read to its end. -/
theorem numberPrefix?_of_isNumber {ds cs : List Char} (h : IsNumber ds) (hend : NumberEnds ds cs) :
    numberPrefix? (ds ++ cs) = some ds := by
  have hstop : ∀ c, cs.head? = some c → isAsciiDigit c = false := fun c hc => (hend c hc).1
  cases h with
  | whole hds hne =>
    have hnopoint : ∀ rest, (ds ++ cs).dropWhile isAsciiDigit ≠ '.' :: rest := by
      rw [dropWhile_digits hds hstop]
      rintro rest rfl
      exact absurd (hds '.' ((hend '.' rfl).2 rfl)) (by decide)
    rw [numberPrefix?_whole hnopoint, takeWhile_digits hds hstop]
    simp [hne]
  | @pointed ds fs hds hfs hne =>
    have hpoint : ∀ c, ('.' :: (fs ++ cs)).head? = some c → isAsciiDigit c = false := by
      rintro c hc
      cases hc
      decide
    rw [List.append_assoc, List.cons_append, numberPrefix?_point (dropWhile_digits hds hpoint),
      takeWhile_digits hds hpoint, takeWhile_digits hfs hstop, if_neg]
    simp only [Bool.and_eq_true, List.isEmpty_iff]
    rintro ⟨rfl, rfl⟩
    simp at hne

theorem not_digit_of_dropWhile {cs : List Char} {c : Char}
    (h : (cs.dropWhile isAsciiDigit).head? = some c) : isAsciiDigit c = false := by
  have hnot := List.head?_dropWhile_not isAsciiDigit cs
  rw [h] at hnot
  simpa using hnot

/-- What is read as a number is one, and it does not go on. -/
theorem isNumber_of_numberPrefix? {cs ds : List Char} (h : numberPrefix? cs = some ds) :
    ∃ rest, cs = ds ++ rest ∧ IsNumber ds ∧ NumberEnds ds rest := by
  have hsplit := List.takeWhile_append_dropWhile (p := isAsciiDigit) (l := cs)
  by_cases hpoint : ∃ rest, cs.dropWhile isAsciiDigit = '.' :: rest
  · obtain ⟨rest, hrest⟩ := hpoint
    rw [numberPrefix?_point hrest] at h
    split at h
    · cases h
    · next hne =>
      cases h
      simp only [Bool.and_eq_true, List.isEmpty_iff] at hne
      refine ⟨rest.dropWhile isAsciiDigit, ?_,
        .pointed (isDigits_takeWhile _) (isDigits_takeWhile _)
          (Decidable.not_and_iff_or_not.mp hne),
        fun c hc => ⟨not_digit_of_dropWhile hc, fun _ => by simp⟩⟩
      rw [List.append_assoc, List.cons_append, List.takeWhile_append_dropWhile, ← hrest, hsplit]
  · have hnopoint : ∀ rest, cs.dropWhile isAsciiDigit ≠ '.' :: rest := not_exists.mp hpoint
    rw [numberPrefix?_whole hnopoint] at h
    split at h
    · cases h
    · next hne =>
      cases h
      refine ⟨cs.dropWhile isAsciiDigit, hsplit.symm,
        .whole (isDigits_takeWhile _) (by simpa using hne),
        fun c hc => ⟨not_digit_of_dropWhile hc, ?_⟩⟩
      rintro rfl
      obtain ⟨rest, hrest⟩ := List.head?_eq_some_iff.mp hc
      exact absurd hrest (hnopoint rest)

/-! ## Spelled symbols -/

/-- A text spells a row of symbols: blanks may stand anywhere between them, and a number is as long
as it can be. -/
inductive Spells : List Char → List Symbol → Prop where
  | nil : Spells [] []
  | blank {c : Char} {cs : List Char} {symbols : List Symbol} (hc : isBlank c = true)
      (rest : Spells cs symbols) : Spells (c :: cs) symbols
  | sign {c : Char} {s : Symbol} {cs : List Char} {symbols : List Symbol}
      (hc : Symbol.ofChar? c = some s) (rest : Spells cs symbols) : Spells (c :: cs) (s :: symbols)
  | number {ds cs : List Char} {symbols : List Symbol} (hds : IsNumber ds)
      (hend : NumberEnds ds cs) (rest : Spells cs symbols) :
      Spells (ds ++ cs) (.number ds :: symbols)

/-- A single number. -/
theorem Spells.of_isNumber {ds : List Char} (h : IsNumber ds) : Spells ds [.number ds] := by
  have hend : NumberEnds ds [] := fun c hc => by cases hc
  have hspells := Spells.number h hend .nil
  rwa [List.append_nil] at hspells

/-- Only characters of expressions are spelled with. -/
theorem Spells.isExpressionChar {cs : List Char} {symbols : List Symbol} (h : Spells cs symbols) :
    ∀ c ∈ cs, isExpressionChar c = true := by
  induction h with
  | nil => intro c hc; cases hc
  | blank hc _ ih =>
    intro d hd
    rcases List.mem_cons.mp hd with rfl | hd
    · simp [Expression.isExpressionChar, hc]
    · exact ih d hd
  | sign hc _ ih =>
    intro d hd
    rcases List.mem_cons.mp hd with rfl | hd
    · simp [Expression.isExpressionChar, hc]
    · exact ih d hd
  | number hds _ _ ih =>
    intro d hd
    rcases List.mem_append.mp hd with hd | hd
    · exact (hds.isNumberChar d hd).isExpressionChar
    · exact ih d hd

/-- Every symbol takes a character. -/
theorem Spells.length_le {cs : List Char} {symbols : List Symbol} (h : Spells cs symbols) :
    symbols.length ≤ cs.length := by
  induction h with
  | nil => exact Nat.le_refl _
  | blank _ _ ih => exact Nat.le_succ_of_le ih
  | sign _ _ ih => exact Nat.succ_le_succ ih
  | number hds _ _ ih =>
    have hpos : 0 < _ := List.length_pos_iff.mpr hds.ne_nil
    rw [List.length_cons, List.length_append]
    omega

/-- No number goes on from one text into another: not both characters where they meet belong to
numbers. -/
def Parted (a b : List Char) : Prop :=
  ∀ c d, a.getLast? = some c → b.head? = some d → IsNumberChar c → ¬ IsNumberChar d

/-- No number goes on into a sign. -/
theorem parted_before_sign (a : List Char) {c : Char} {s : Symbol}
    (hc : Symbol.ofChar? c = some s) (b : List Char) : Parted a (c :: b) := by
  intro _ d _ hd _ hnumber
  obtain rfl : c = d := by simpa using hd
  rw [hnumber.not_sign] at hc
  cases hc

/-- No number goes on from a sign. -/
theorem parted_behind_sign (a : List Char) {c : Char} {s : Symbol}
    (hc : Symbol.ofChar? c = some s) (b : List Char) : Parted (a ++ [c]) b := by
  intro d _ hd _ hnumber
  obtain rfl : c = d := by simpa using hd
  rw [hnumber.not_sign] at hc
  cases hc

theorem Parted.of_cons {c : Char} {a b : List Char} (h : Parted (c :: a) b) : Parted a b := by
  intro d e hd
  refine h d e ?_
  rw [List.getLast?_cons, hd]
  rfl

theorem Parted.of_append {a b c : List Char} (h : Parted (a ++ b) c) : Parted b c := by
  induction a with
  | nil => exact h
  | cons d a ih => exact ih h.of_cons

/-- Behind a number stands no character of numbers. -/
theorem Parted.numberEnds {ds cs : List Char} (h : Parted ds cs) (hds : IsNumber ds) :
    NumberEnds ds cs := by
  intro d hd
  have hlast := List.getLast?_eq_some_getLast hds.ne_nil
  have hnot : ¬ IsNumberChar d :=
    h _ d hlast hd (hds.isNumberChar _ (List.getLast_mem hds.ne_nil))
  exact ⟨by simpa using fun hdigit => hnot (Or.inl hdigit),
    fun hpoint => absurd (Or.inr hpoint) hnot⟩

/-- A number that ends within a text also ends there when another one is put behind it. -/
theorem Parted.numberEnds_append {ds cs b : List Char} (h : Parted (ds ++ cs) b)
    (hds : IsNumber ds) (hend : NumberEnds ds cs) : NumberEnds ds (cs ++ b) := by
  cases cs with
  | nil =>
    rw [List.append_nil] at h
    exact h.numberEnds hds
  | cons c cs => exact fun d hd => hend d hd

/-- Two texts are joined where no number goes on. -/
theorem Spells.append_of_parted {a b : List Char} {s t : List Symbol} (ha : Spells a s)
    (hb : Spells b t) (hmeet : Parted a b) : Spells (a ++ b) (s ++ t) := by
  induction ha with
  | nil => exact hb
  | blank hc _ ih => exact .blank hc (ih hmeet.of_cons)
  | sign hc _ ih => exact .sign hc (ih hmeet.of_cons)
  | @number ds cs symbols hds hend _ ih =>
    rw [List.append_assoc]
    exact .number hds (hmeet.numberEnds_append hds hend) (ih hmeet.of_append)

/-- Two texts are joined where the second starts neither with a digit nor with a point. -/
theorem Spells.append {a b : List Char} {s t : List Symbol} (ha : Spells a s) (hb : Spells b t)
    (hmeet : ∀ c, b.head? = some c → ¬ IsNumberChar c) : Spells (a ++ b) (s ++ t) :=
  ha.append_of_parted hb fun _ d _ hd _ => hmeet d hd

/-- A text is cut in two where no number goes on. -/
theorem Spells.exists_of_append {a b : List Char} {symbols : List Symbol}
    (h : Spells (a ++ b) symbols) (hmeet : Parted a b) :
    ∃ s t, symbols = s ++ t ∧ Spells a s ∧ Spells b t := by
  generalize htext : a ++ b = text at h
  induction h generalizing a with
  | nil =>
    obtain ⟨rfl, rfl⟩ := List.append_eq_nil_iff.mp htext
    exact ⟨[], [], rfl, .nil, .nil⟩
  | @blank c cs symbols hc rest ih =>
    cases a with
    | nil =>
      obtain rfl : b = c :: cs := htext
      exact ⟨[], symbols, rfl, .nil, .blank hc rest⟩
    | cons e a =>
      obtain ⟨rfl, hcs⟩ := List.cons.inj htext
      obtain ⟨s, t, rfl, hs, ht⟩ := ih hmeet.of_cons hcs
      exact ⟨s, t, rfl, .blank hc hs, ht⟩
  | @sign c sign cs symbols hc rest ih =>
    cases a with
    | nil =>
      obtain rfl : b = c :: cs := htext
      exact ⟨[], _, rfl, .nil, .sign hc rest⟩
    | cons e a =>
      obtain ⟨rfl, hcs⟩ := List.cons.inj htext
      obtain ⟨s, t, rfl, hs, ht⟩ := ih hmeet.of_cons hcs
      exact ⟨sign :: s, t, rfl, .sign hc hs, ht⟩
  | @number ds cs symbols hds hend rest ih =>
    rcases List.append_eq_append_iff.mp htext with ⟨more, rfl, rfl⟩ | ⟨more, rfl, rfl⟩
    · -- the cut is inside the number, or right at one of its ends
      cases more with
      | nil =>
        rw [List.append_nil] at hds hend ⊢
        exact ⟨[.number a], symbols, rfl, .of_isNumber hds, rest⟩
      | cons d more =>
        rcases List.eq_nil_or_concat a with rfl | ⟨front, c, rfl⟩
        · exact ⟨[], _, rfl, .nil, .number hds hend rest⟩
        · rw [List.concat_eq_append] at hds hmeet
          have hc : IsNumberChar c := hds.isNumberChar c (by simp)
          have hd : IsNumberChar d := hds.isNumberChar d (by simp)
          exact absurd hd (hmeet c d (by simp) rfl hc)
    · obtain ⟨s, t, rfl, hs, ht⟩ := ih hmeet.of_append rfl
      refine ⟨_ :: s, t, rfl, .number hds (fun c hc => hend c ?_) hs, ht⟩
      rw [List.head?_append, hc]
      rfl

/-- Blanks in front of a text. -/
theorem Spells.blanks_append {bs cs : List Char} {symbols : List Symbol}
    (hbs : IsBlanks bs) (h : Spells cs symbols) : Spells (bs ++ cs) symbols := by
  induction bs with
  | nil => exact h
  | cons b bs ih => exact .blank (hbs b List.mem_cons_self) (ih hbs.of_cons)

/-- A blank in front of a text may be cut off. -/
theorem Spells.of_cons_blank {c : Char} {cs : List Char} {symbols : List Symbol}
    (hc : isBlank c = true) (h : Spells (c :: cs) symbols) : Spells cs symbols := by
  generalize htext : c :: cs = text at h
  cases h with
  | nil => cases htext
  | blank _ rest => cases htext; exact rest
  | sign hsign _ =>
    cases htext
    rw [isBlank_of_ofChar? hsign] at hc
    cases hc
  | @number ds rest symbols hds _ _ =>
    obtain ⟨d, ds, rfl⟩ := List.exists_cons_of_ne_nil hds.ne_nil
    cases htext
    rw [(hds.isNumberChar c List.mem_cons_self).not_blank] at hc
    cases hc

/-- A blank behind a text may be cut off. -/
theorem Spells.of_append_blank {c : Char} {cs : List Char} {symbols : List Symbol}
    (hc : isBlank c = true) (h : Spells (cs ++ [c]) symbols) : Spells cs symbols := by
  generalize htext : cs ++ [c] = text at h
  induction h generalizing cs with
  | nil => simp at htext
  | @blank d ds symbols hd rest ih =>
    cases cs with
    | nil =>
      obtain ⟨rfl, rfl⟩ : c = d ∧ [] = ds := by simpa using htext
      exact rest
    | cons e cs =>
      obtain ⟨rfl, rfl⟩ : e = d ∧ cs ++ [c] = ds := by simpa using htext
      exact .blank hd (ih rfl)
  | @sign d s ds symbols hd rest ih =>
    cases cs with
    | nil =>
      obtain ⟨rfl, rfl⟩ : c = d ∧ [] = ds := by simpa using htext
      rw [isBlank_of_ofChar? hd] at hc
      cases hc
    | cons e cs =>
      obtain ⟨rfl, rfl⟩ : e = d ∧ cs ++ [c] = ds := by simpa using htext
      exact .sign hd (ih rfl)
  | @number ds rest symbols hds hend hrest ih =>
    -- the blank is not part of the number, so it ends the rest of the text
    rcases List.eq_nil_or_concat rest with rfl | ⟨front, d, rfl⟩
    · rw [List.append_nil] at htext
      have hmem : c ∈ ds := by rw [← htext]; simp
      rw [(hds.isNumberChar c hmem).not_blank] at hc
      cases hc
    · rw [List.concat_eq_append] at hend ih htext
      rw [← List.append_assoc] at htext
      obtain ⟨rfl, heq⟩ := List.append_inj' htext rfl
      cases heq
      refine .number hds (fun e he => hend e ?_) (ih rfl)
      rw [List.head?_append, he]
      rfl

/-- Blanks at the two ends of a text spell nothing. -/
theorem Spells.of_blanks {before after cs : List Char} {symbols : List Symbol}
    (h : Spells (before ++ (cs ++ after)) symbols) (hbefore : IsBlanks before)
    (hafter : IsBlanks after) : Spells cs symbols := by
  induction before with
  | nil =>
    induction after using List.reverseRecOn with
    | nil => rwa [List.nil_append, List.append_nil] at h
    | append_singleton after b ih =>
      rw [List.nil_append, ← List.append_assoc] at h
      have hb : isBlank b = true := hafter b (by simp)
      exact ih (fun c hc => hafter c (List.mem_append_left _ hc)) (h.of_append_blank hb)
  | cons b before ih =>
    exact ih (h.of_cons_blank (hbefore b List.mem_cons_self)) hbefore.of_cons

/-- Parentheses around a text are symbols of their own. -/
theorem Spells.parenthesized {cs : List Char} {symbols : List Symbol} (h : Spells cs symbols) :
    Spells ('(' :: (cs ++ [')'])) (.opening :: (symbols ++ [.closing])) := by
  have hclose : Spells [')'] [.closing] := .sign rfl .nil
  refine .sign rfl (h.append hclose fun c hc => ?_)
  cases hc
  rintro (h | h) <;> revert h <;> decide

/-! ## Scanning -/

/-- The characters of a number that is read already are skipped. -/
theorem scanFrom_skip (place : Nat) (xs cs : List Char) :
    Lexeme.scanFrom place xs.length (xs ++ cs) = Lexeme.scanFrom (place + xs.length) 0 cs := by
  induction xs generalizing place with
  | nil => rfl
  | cons x xs ih =>
    rw [List.length_cons, List.cons_append, Lexeme.scanFrom, ih]
    congr 1
    omega

/-- A number in front is one lexeme. -/
theorem scanFrom_number (place : Nat) {ds cs : List Char} (hds : IsNumber ds)
    (hend : NumberEnds ds cs) :
    Lexeme.scanFrom place 0 (ds ++ cs)
      = (Lexeme.scanFrom (place + ds.length) 0 cs).map (⟨.number ds, place⟩ :: ·) := by
  have hread := numberPrefix?_of_isNumber hds hend
  obtain ⟨d, ds, rfl⟩ := List.exists_cons_of_ne_nil hds.ne_nil
  have hd := hds.isNumberChar d List.mem_cons_self
  rw [List.cons_append] at hread ⊢
  rw [Lexeme.scanFrom, if_neg (by simp [hd.not_blank]), hd.not_sign, hread]
  show (Lexeme.scanFrom (place + 1) ds.length (ds ++ cs)).map _ = _
  rw [scanFrom_skip, List.length_cons]
  congr 2
  omega

theorem scanFrom_of_spells {cs : List Char} {symbols : List Symbol} (h : Spells cs symbols)
    (place : Nat) :
    ∃ lexemes, Lexeme.scanFrom place 0 cs = .ok lexemes ∧ lexemes.map (·.symbol) = symbols := by
  induction h generalizing place with
  | nil => exact ⟨[], rfl, rfl⟩
  | blank hc _ ih =>
    obtain ⟨lexemes, hscan, hmap⟩ := ih (place + 1)
    rw [Lexeme.scanFrom, if_pos hc]
    exact ⟨lexemes, hscan, hmap⟩
  | sign hc _ ih =>
    obtain ⟨lexemes, hscan, hmap⟩ := ih (place + 1)
    rw [Lexeme.scanFrom, if_neg (by simp [isBlank_of_ofChar? hc]), hc, hscan]
    exact ⟨_, rfl, by rw [List.map_cons, hmap]⟩
  | @number ds cs symbols hds hend _ ih =>
    obtain ⟨lexemes, hscan, hmap⟩ := ih (place + ds.length)
    rw [scanFrom_number place hds hend, hscan]
    exact ⟨_, rfl, by rw [List.map_cons, hmap]⟩

theorem spells_of_scanFrom {cs : List Char} {skip place : Nat} {lexemes : List Lexeme}
    (h : Lexeme.scanFrom place skip cs = .ok lexemes) :
    Spells (cs.drop skip) (lexemes.map (·.symbol)) := by
  induction cs generalizing skip place lexemes with
  | nil =>
    rw [Lexeme.scanFrom] at h
    cases h
    rw [List.drop_nil]
    exact .nil
  | cons c cs ih =>
    cases skip with
    | succ skip =>
      rw [Lexeme.scanFrom] at h
      exact ih h
    | zero =>
      rw [Lexeme.scanFrom] at h
      rw [List.drop_zero]
      split at h
      · next hblank => exact .blank hblank (ih h)
      · split at h
        · next symbol hsign =>
          obtain ⟨rest, hrest, rfl⟩ := map_eq_ok_iff.mp h
          exact .sign hsign (ih hrest)
        · split at h
          · next ds hds =>
            obtain ⟨rest, hrest, rfl⟩ := map_eq_ok_iff.mp h
            obtain ⟨tail, htext, hnumber, hend⟩ := isNumber_of_numberPrefix? hds
            have hspells := ih hrest
            -- behind the number stands what is left of the text after skipping it
            obtain ⟨d, ds, rfl⟩ := List.exists_cons_of_ne_nil hnumber.ne_nil
            rw [List.cons_append] at htext
            obtain ⟨rfl, rfl⟩ := List.cons.inj htext
            rw [List.length_cons, Nat.add_sub_cancel, List.drop_left] at hspells
            exact .number hnumber hend hspells
          · cases h

/-- Where no number goes on from one text into another, they are scanned one after the other. -/
theorem scanFrom_append {a b : List Char} {row : List Symbol} (ha : Spells a row)
    (hmeet : Parted a b) {place : Nat} {s t : List Lexeme}
    (hs : Lexeme.scanFrom place 0 a = .ok s)
    (ht : Lexeme.scanFrom (place + a.length) 0 b = .ok t) :
    Lexeme.scanFrom place 0 (a ++ b) = .ok (s ++ t) := by
  induction ha generalizing place s with
  | nil =>
    cases hs
    exact ht
  | @blank c cs row hc _ ih =>
    have hplace : place + (c :: cs).length = place + 1 + cs.length := by
      rw [List.length_cons]
      omega
    rw [hplace] at ht
    rw [Lexeme.scanFrom, if_pos hc] at hs
    rw [List.cons_append, Lexeme.scanFrom, if_pos hc]
    exact ih hmeet.of_cons hs ht
  | @sign c sign cs row hc _ ih =>
    have hplace : place + (c :: cs).length = place + 1 + cs.length := by
      rw [List.length_cons]
      omega
    rw [hplace] at ht
    rw [Lexeme.scanFrom, if_neg (by simp [isBlank_of_ofChar? hc]), hc] at hs
    obtain ⟨rest, hrest, rfl⟩ := map_eq_ok_iff.mp hs
    rw [List.cons_append, Lexeme.scanFrom, if_neg (by simp [isBlank_of_ofChar? hc]), hc]
    exact map_eq_ok_iff.mpr ⟨rest ++ t, ih hmeet.of_cons hrest ht, rfl⟩
  | @number ds cs row hds hend _ ih =>
    have hplace : place + (ds ++ cs).length = place + ds.length + cs.length := by
      rw [List.length_append]
      omega
    rw [hplace] at ht
    rw [scanFrom_number place hds hend] at hs
    obtain ⟨rest, hrest, rfl⟩ := map_eq_ok_iff.mp hs
    rw [List.append_assoc, scanFrom_number place hds (hmeet.numberEnds_append hds hend)]
    exact map_eq_ok_iff.mpr ⟨rest ++ t, ih hmeet.of_append hrest ht, rfl⟩

/-- What is scanned in a text is what is scanned in each of two parts, where no number goes on from
one into the other. -/
theorem exists_of_scanFrom_append {a b : List Char} (hmeet : Parted a b) {place : Nat}
    {lexemes : List Lexeme} (h : Lexeme.scanFrom place 0 (a ++ b) = .ok lexemes) :
    ∃ s t, lexemes = s ++ t ∧ Lexeme.scanFrom place 0 a = .ok s
      ∧ Lexeme.scanFrom (place + a.length) 0 b = .ok t := by
  obtain ⟨ra, rb, -, ha, hb⟩ := (spells_of_scanFrom h).exists_of_append hmeet
  obtain ⟨s, hs, -⟩ := scanFrom_of_spells ha place
  obtain ⟨t, ht, -⟩ := scanFrom_of_spells hb (place + a.length)
  rw [scanFrom_append ha hmeet hs ht] at h
  exact ⟨s, t, (Except.ok.inj h).symm, hs, ht⟩

/-- The place behind a lexeme. -/
def Lexeme.stop (l : Lexeme) : Nat :=
  l.place + l.symbol.chars.length

theorem chars_of_ofChar? {c : Char} {s : Symbol} (h : Symbol.ofChar? c = some s) :
    s.chars = [c] := by
  unfold Symbol.ofChar? at h
  split at h <;> first | cases h; rfl | cases h

/-- The lexemes of a text lie within it. -/
theorem within_scanFrom {cs : List Char} {place : Nat} {lexemes : List Lexeme}
    (h : Lexeme.scanFrom place 0 cs = .ok lexemes) :
    ∀ l ∈ lexemes, place ≤ l.place ∧ l.stop ≤ place + cs.length := by
  have hspells := spells_of_scanFrom h
  rw [List.drop_zero] at hspells
  generalize lexemes.map (·.symbol) = row at hspells
  induction hspells generalizing place lexemes with
  | nil =>
    cases h
    intro l hl
    cases hl
  | @blank c cs row hc _ ih =>
    rw [Lexeme.scanFrom, if_pos hc] at h
    intro l hl
    have hinner := ih h l hl
    rw [List.length_cons]
    omega
  | @sign c s cs row hc _ ih =>
    rw [Lexeme.scanFrom, if_neg (by simp [isBlank_of_ofChar? hc]), hc] at h
    obtain ⟨rest, hrest, rfl⟩ := map_eq_ok_iff.mp h
    intro l hl
    rw [List.length_cons]
    rcases List.mem_cons.mp hl with rfl | hl
    · simp only [Lexeme.stop, chars_of_ofChar? hc, List.length_singleton]
      omega
    · have hinner := ih hrest l hl
      omega
  | @number ds cs row hds hend _ ih =>
    rw [scanFrom_number place hds hend] at h
    obtain ⟨rest, hrest, rfl⟩ := map_eq_ok_iff.mp h
    intro l hl
    rw [List.length_append]
    rcases List.mem_cons.mp hl with rfl | hl
    · simp only [Lexeme.stop, Symbol.chars]
      omega
    · have hinner := ih hrest l hl
      omega

theorem firstInvalid?_eq_none {cs : List Char} (h : ∀ c ∈ cs, isExpressionChar c = true)
    (place : Nat) : Lexeme.firstInvalid? place cs = none := by
  induction cs generalizing place with
  | nil => rfl
  | cons c cs ih =>
    rw [Lexeme.firstInvalid?, if_pos (h c List.mem_cons_self)]
    exact ih (fun d hd => h d (List.mem_cons_of_mem _ hd)) (place + 1)

/-- **The scan decides what a text spells.** -/
theorem scan_iff_spells {cs : List Char} {symbols : List Symbol} :
    (∃ lexemes, Lexeme.scan cs = .ok lexemes ∧ lexemes.map (·.symbol) = symbols)
      ↔ Spells cs symbols := by
  constructor
  · rintro ⟨lexemes, hscan, rfl⟩
    unfold Lexeme.scan at hscan
    split at hscan
    · cases hscan
    · exact spells_of_scanFrom hscan
  · intro h
    obtain ⟨lexemes, hscan, hmap⟩ := scanFrom_of_spells h 0
    refine ⟨lexemes, ?_, hmap⟩
    rw [Lexeme.scan, firstInvalid?_eq_none h.isExpressionChar]
    exact hscan

/-- A text spells one row only. -/
theorem Spells.unique {cs : List Char} {s t : List Symbol} (hs : Spells cs s) (ht : Spells cs t) :
    s = t := by
  obtain ⟨lexemes, hscan, rfl⟩ := scan_iff_spells.mpr hs
  obtain ⟨others, hscan', rfl⟩ := scan_iff_spells.mpr ht
  rw [hscan] at hscan'
  cases hscan'
  rfl

end Tariff.Expression

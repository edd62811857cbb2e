import Tariff.Proofs.Expression.Factor

/-!
# Scanning loses nothing

`Spells` says which symbols a text is written with. Here is where they stand, and which texts are
not written with symbols at all. One turn of the scan passes a blank, cuts a symbol off, or ends at
a character that starts none (`scanFrom_cases`); from this follow

* `LaidOut` — the lexemes of a text in their places, with blanks between them;
* `StrayPoint` — the only thing that a text of permitted characters can be refused for: a point that
  no number takes and that starts none;
* `scan_loses_nothing` — both, and that the lexemes with single blanks between them are read back.

The rule for numbers knows the digits of every script, and the rule for characters only those of
ASCII. Since no blank is a digit of any script (`isDigit_of_isBlank`), the two agree.
-/

namespace Tariff.Expression

open Text

/-! ## Digits of other scripts -/

/-- The code points of the blanks beyond ASCII. -/
def wideBlanks : List Nat := [
    0x85, 0xA0, 0x1680, 0x2000, 0x2001, 0x2002, 0x2003, 0x2004, 0x2005, 0x2006, 0x2007, 0x2008,
    0x2009, 0x200A, 0x2028, 0x2029, 0x202F, 0x205F, 0x3000]

theorem isDigit_eq_isAsciiDigit {c : Char} (h : c.toNat < 0x80) : isDigit c = isAsciiDigit c := by
  rw [isDigit, digitValue?]
  simp only [if_pos h]
  cases isAsciiDigit c <;> rfl

/-- No blank is a digit of any script. -/
theorem isDigit_of_isBlank {c : Char} (h : isBlank c = true) : isDigit c = false := by
  by_cases hsmall : c.toNat < 0x80
  · rw [isDigit_eq_isAsciiDigit hsmall, ← Bool.not_eq_true]
    intro hdigit
    rw [isBlank_of_digit hdigit] at h
    cases h
  · have hcode : c.toNat ∈ wideBlanks := by
      simp only [isBlank, Bool.or_eq_true, Bool.and_eq_true, decide_eq_true_eq, beq_iff_eq] at h
      simp only [wideBlanks, List.mem_cons, List.not_mem_nil, or_false]
      omega
    have hnone : ∀ n ∈ wideBlanks, (zeroDigits.find? fun z => z ≤ n && n ≤ z + 9) = none := by
      decide
    rw [isDigit, digitValue?]
    simp only [if_neg hsmall, hnone _ hcode]
    rfl

/-- Of the characters of expressions only the digits of ASCII are digits. -/
theorem isAsciiDigit_of_isDigit {c : Char} (hc : isExpressionChar c = true)
    (h : isDigit c = true) : isAsciiDigit c = true := by
  simp only [isExpressionChar, Bool.or_eq_true, beq_iff_eq] at hc
  rcases hc with ((hdigit | rfl) | hsign) | hblank
  · exact hdigit
  · exact absurd h (by decide)
  · obtain ⟨s, hs⟩ := Option.isSome_iff_exists.mp hsign
    have hsigns : ['+', '-', '*', '/', '(', ')'].all (fun d => !isDigit d) = true := by decide
    have hnot := List.all_eq_true.mp hsigns c (mem_signs_of_ofChar? hs)
    rw [h] at hnot
    cases hnot
  · rw [isDigit_of_isBlank hblank] at h
    cases h

/-- The text of a number, whatever scripts its digits are of. -/
inductive IsNumeral : List Char → Prop where
  | whole {ds : List Char} (hds : ∀ c ∈ ds, isDigit c = true) (hne : ds ≠ []) : IsNumeral ds
  | pointed {ds fs : List Char} (hds : ∀ c ∈ ds, isDigit c = true)
      (hfs : ∀ c ∈ fs, isDigit c = true) (hne : ds ≠ [] ∨ fs ≠ []) : IsNumeral (ds ++ '.' :: fs)

/-- In an expression numbers are written with the digits of ASCII. -/
theorem isNumeral_iff {cs : List Char} (h : ∀ c ∈ cs, isExpressionChar c = true) :
    IsNumeral cs ↔ IsNumber cs := by
  constructor
  · intro hnumeral
    cases hnumeral with
    | whole hds hne => exact .whole (fun c hc => isAsciiDigit_of_isDigit (h c hc) (hds c hc)) hne
    | pointed hds hfs hne =>
      refine .pointed (fun c hc => ?_) (fun c hc => ?_) hne
      · exact isAsciiDigit_of_isDigit (h c (by simp [hc])) (hds c hc)
      · exact isAsciiDigit_of_isDigit (h c (by simp [hc])) (hfs c hc)
  · intro hnumber
    cases hnumber with
    | whole hds hne => exact .whole (fun c hc => isDigit_of_isAsciiDigit (hds c hc)) hne
    | pointed hds hfs hne =>
      exact .pointed (fun c hc => isDigit_of_isAsciiDigit (hds c hc))
        (fun c hc => isDigit_of_isAsciiDigit (hfs c hc)) hne

/-! ## Numbers that cannot be longer -/

theorem IsDigits.count_point {ds : List Char} (h : IsDigits ds) : ds.count '.' = 0 :=
  List.count_eq_zero.mpr fun hmem => absurd (h '.' hmem) (by decide)

theorem IsNumber.count_point_le {ds : List Char} (h : IsNumber ds) : ds.count '.' ≤ 1 := by
  cases h with
  | whole hds _ => rw [hds.count_point]; exact Nat.zero_le 1
  | pointed hds hfs _ =>
    rw [List.count_append, List.count_cons_self, hds.count_point, hfs.count_point]

/-- A number that ends before a text is no longer one with more of it. -/
theorem NumberEnds.not_isNumber_append {ds cs more : List Char} (hend : NumberEnds ds cs)
    (hmore : more <+: cs) (hne : more ≠ []) : ¬ IsNumber (ds ++ more) := by
  intro h
  obtain ⟨c, more, rfl⟩ := List.exists_cons_of_ne_nil hne
  obtain ⟨rest, rfl⟩ := hmore
  obtain ⟨hdigit, hpoint⟩ := hend c rfl
  rcases h.isNumberChar c (by simp) with hc | rfl
  · rw [hc] at hdigit
    cases hdigit
  · -- there would be two points in it
    have htwo : 1 ≤ ds.count '.' := List.one_le_count_iff.mpr (hpoint rfl)
    have hone := h.count_point_le
    rw [List.count_append, List.count_cons_self] at hone
    omega

/-! ## One turn of the scan -/

/-- A symbol that ends before a text: a number is one that does not go on into it. -/
def Symbol.EndsAt (s : Symbol) (cs : List Char) : Prop :=
  ∀ ds, s = .number ds → IsNumber ds ∧ NumberEnds ds cs

theorem Symbol.chars_of_not_number {s : Symbol} (h : ∀ ds, s ≠ .number ds) :
    ∃ c, s.chars = [c] ∧ Symbol.ofChar? c = some s := by
  cases s with
  | number ds => exact absurd rfl (h ds)
  | operator op => exact ⟨op.sign, rfl, by cases op <;> rfl⟩
  | opening => exact ⟨'(', rfl, rfl⟩
  | closing => exact ⟨')', rfl, rfl⟩

/-- A symbol is a number, or a sign of one character. -/
theorem Symbol.EndsAt.cases {s : Symbol} {cs : List Char} (h : s.EndsAt cs) :
    (∃ ds, s = .number ds ∧ IsNumber ds ∧ NumberEnds ds cs)
      ∨ ∃ c, s.chars = [c] ∧ Symbol.ofChar? c = some s := by
  by_cases hnumber : ∃ ds, s = .number ds
  · obtain ⟨ds, rfl⟩ := hnumber
    exact Or.inl ⟨ds, rfl, h ds rfl⟩
  · exact Or.inr (s.chars_of_not_number (not_exists.mp hnumber))

theorem Symbol.EndsAt.ne_nil {s : Symbol} {cs : List Char} (h : s.EndsAt cs) : s.chars ≠ [] := by
  rcases h.cases with ⟨ds, rfl, hds, -⟩ | ⟨c, hchars, -⟩
  · exact hds.ne_nil
  · simp [hchars]

theorem Symbol.EndsAt.not_blank {s : Symbol} {cs : List Char} (h : s.EndsAt cs) :
    ∀ c ∈ s.chars, isBlank c = false := by
  intro c hc
  rcases h.cases with ⟨ds, rfl, hds, -⟩ | ⟨d, hchars, hd⟩
  · exact (hds.isNumberChar c hc).not_blank
  · rw [hchars, List.mem_singleton] at hc
    rw [hc]
    exact isBlank_of_ofChar? hd

theorem Symbol.EndsAt.spells {s : Symbol} {cs : List Char} (h : s.EndsAt cs) :
    Spells s.chars [s] := by
  rcases h.cases with ⟨ds, rfl, hds, -⟩ | ⟨c, hchars, hc⟩
  · exact .of_isNumber hds
  · rw [hchars]
    exact .sign hc .nil

/-- **What one turn of the scan does**: it passes a blank, cuts the next symbol off, or ends at a
character that starts none. -/
theorem scanFrom_cases (place : Nat) (c : Char) (cs : List Char) :
    (isBlank c = true ∧ Lexeme.scanFrom place 0 (c :: cs) = Lexeme.scanFrom (place + 1) 0 cs)
      ∨ (∃ (s : Symbol) (rest : List Char), c :: cs = s.chars ++ rest ∧ s.EndsAt rest
          ∧ Lexeme.scanFrom place 0 (c :: cs)
            = (Lexeme.scanFrom (place + s.chars.length) 0 rest).map (⟨s, place⟩ :: ·))
      ∨ isBlank c = false ∧ Symbol.ofChar? c = none ∧ numberPrefix? (c :: cs) = none
          ∧ Lexeme.scanFrom place 0 (c :: cs) = .error (.malformedNumber c place) := by
  cases hblank : isBlank c with
  | true => exact Or.inl ⟨rfl, by rw [Lexeme.scanFrom, if_pos hblank]⟩
  | false =>
    have hnot : ¬ isBlank c = true := by simp [hblank]
    cases hsign : Symbol.ofChar? c with
    | some s =>
      have hchars := chars_of_ofChar? hsign
      refine Or.inr (Or.inl ⟨s, cs, by rw [hchars]; rfl, ?_, ?_⟩)
      · rintro ds rfl
        exact absurd hsign (ofChar?_ne_number c ds)
      · rw [Lexeme.scanFrom, if_neg hnot, hsign, hchars]
        rfl
    | none =>
      cases hnumber : numberPrefix? (c :: cs) with
      | none =>
        refine Or.inr (Or.inr ⟨rfl, rfl, rfl, ?_⟩)
        rw [Lexeme.scanFrom, if_neg hnot, hsign, hnumber]
      | some ds =>
        obtain ⟨rest, htext, hds, hend⟩ := isNumber_of_numberPrefix? hnumber
        refine Or.inr (Or.inl ⟨.number ds, rest, htext, ?_, ?_⟩)
        · rintro _ ⟨⟩
          exact ⟨hds, hend⟩
        · rw [htext, scanFrom_number place hds hend]
          rfl

/-- **The scan always advances.** At every place before the end of a text it fails, or it goes on
with what is left behind at least one more character. -/
theorem scanFrom_advances (place : Nat) (c : Char) (cs : List Char) :
    Lexeme.scanFrom place 0 (c :: cs) = .error (.malformedNumber c place)
      ∨ ∃ (n : Nat) (found : List Lexeme), 0 < n ∧ n ≤ (c :: cs).length
        ∧ Lexeme.scanFrom place 0 (c :: cs)
          = (Lexeme.scanFrom (place + n) 0 ((c :: cs).drop n)).map (found ++ ·) := by
  rcases scanFrom_cases place c cs with
    ⟨-, hscan⟩ | ⟨s, rest, htext, hend, hscan⟩ | ⟨-, -, -, hscan⟩
  · refine Or.inr ⟨1, [], Nat.one_pos, Nat.succ_le_succ (Nat.zero_le _), ?_⟩
    rw [hscan, List.drop_one, List.tail_cons]
    cases Lexeme.scanFrom (place + 1) 0 cs <;> rfl
  · refine Or.inr ⟨s.chars.length, [⟨s, place⟩], List.length_pos_iff.mpr hend.ne_nil, ?_, ?_⟩
    · rw [htext, List.length_append]
      exact Nat.le_add_right _ _
    · rw [hscan, htext, List.drop_left]
      rfl
  · exact Or.inl hscan

/-! ## Lexemes in their places -/

/-- Lexemes that lie in a text behind `front`, each in its place and with blanks between them. -/
inductive LaidOut : List Char → List Char → List Lexeme → Prop where
  | nil {front : List Char} : LaidOut front [] []
  | blank {front cs : List Char} {c : Char} {lexemes : List Lexeme} (hc : isBlank c = true)
      (rest : LaidOut (front ++ [c]) cs lexemes) : LaidOut front (c :: cs) lexemes
  | symbol {front cs : List Char} {s : Symbol} {lexemes : List Lexeme} (hend : s.EndsAt cs)
      (rest : LaidOut (front ++ s.chars) cs lexemes) :
      LaidOut front (s.chars ++ cs) (⟨s, front.length⟩ :: lexemes)

/-- What is scanned is laid out. -/
theorem laidOut_of_scanFrom {front cs : List Char} {lexemes : List Lexeme}
    (h : Lexeme.scanFrom front.length 0 cs = .ok lexemes) : LaidOut front cs lexemes := by
  match cs with
  | [] =>
    cases h
    exact .nil
  | c :: cs =>
    rcases scanFrom_cases front.length c cs with
      ⟨hblank, hscan⟩ | ⟨s, rest, htext, hend, hscan⟩ | ⟨-, -, -, hscan⟩
    · rw [hscan] at h
      exact .blank hblank (laidOut_of_scanFrom (by rwa [List.length_append]))
    · have hshort := length_le_of_cons_eq_append htext hend.ne_nil
      rw [hscan] at h
      obtain ⟨others, hothers, rfl⟩ := map_eq_ok_iff.mp h
      rw [htext]
      exact .symbol hend (laidOut_of_scanFrom (by rwa [List.length_append]))
    · rw [hscan] at h
      cases h
  termination_by cs.length

namespace LaidOut

variable {front cs : List Char} {lexemes : List Lexeme}

/-- A lexeme ends before the next one begins. -/
theorem apart (h : LaidOut front cs lexemes) :
    (∀ l ∈ lexemes, front.length ≤ l.place) ∧ lexemes.Pairwise fun a b => a.stop ≤ b.place := by
  induction h with
  | nil => exact ⟨List.forall_mem_nil _, .nil⟩
  | blank hc _ ih =>
    refine ⟨fun l hl => ?_, ih.2⟩
    have hplace := ih.1 l hl
    rw [List.length_append] at hplace
    omega
  | symbol hend _ ih =>
    simp only [List.length_append] at ih
    refine ⟨List.forall_mem_cons.mpr ⟨Nat.le_refl _, fun l hl => ?_⟩, .cons ih.1 ih.2⟩
    exact Nat.le_trans (Nat.le_add_right _ _) (ih.1 l hl)

/-- A lexeme has at least one character. -/
theorem place_lt_stop (h : LaidOut front cs lexemes) : ∀ l ∈ lexemes, l.place < l.stop := by
  induction h with
  | nil => exact List.forall_mem_nil _
  | blank _ _ ih => exact ih
  | symbol hend _ ih =>
    exact List.forall_mem_cons.mpr
      ⟨Nat.lt_add_of_pos_right (List.length_pos_iff.mpr hend.ne_nil), ih⟩

/-- A lexeme is what is written in its place. -/
theorem text (h : LaidOut front cs lexemes) :
    ∀ l ∈ lexemes, l.symbol.chars <+: (front ++ cs).drop l.place := by
  induction h with
  | nil => exact List.forall_mem_nil _
  | blank _ _ ih => simpa using ih
  | symbol _ _ ih =>
    rw [List.append_assoc] at ih
    refine List.forall_mem_cons.mpr ⟨?_, ih⟩
    rw [List.drop_left]
    exact List.prefix_append _ _

/-- Every character is a blank or part of a lexeme. -/
theorem not_blank_iff (h : LaidOut front cs lexemes) {i : Nat} {c : Char} (hi : front.length ≤ i)
    (hc : (front ++ cs)[i]? = some c) :
    isBlank c = false ↔ ∃ l ∈ lexemes, l.place ≤ i ∧ i < l.stop := by
  induction h with
  | @nil front =>
    rw [List.append_nil, List.getElem?_eq_none hi] at hc
    cases hc
  | @blank front cs d lexemes hd rest ih =>
    rcases Nat.eq_or_lt_of_le hi with rfl | hlt
    · rw [List.getElem?_append_right (Nat.le_refl _), Nat.sub_self] at hc
      obtain rfl : d = c := Option.some.inj hc
      refine iff_of_false (by simp [hd]) ?_
      rintro ⟨l, hl, hplace, -⟩
      have hbehind := rest.apart.1 l hl
      rw [List.length_append, List.length_singleton] at hbehind
      omega
    · exact ih (by rwa [List.length_append]) (by rwa [List.append_assoc])
  | @symbol front cs s lexemes hend rest ih =>
    rw [List.exists_mem_cons_iff]
    by_cases hlt : i < front.length + s.chars.length
    · have hmem : c ∈ s.chars := by
        rw [List.getElem?_append_right hi, List.getElem?_append_left (by omega)] at hc
        exact List.mem_of_getElem? hc
      exact iff_of_true (hend.not_blank c hmem) (Or.inl ⟨hi, hlt⟩)
    · rw [ih (by rw [List.length_append]; omega) (by rwa [List.append_assoc])]
      exact (or_iff_right fun hfirst => hlt hfirst.2).symm

/-- A number ends where no character of numbers goes on from it. -/
theorem numberEnds (h : LaidOut front cs lexemes) {ds : List Char} {place : Nat}
    (hl : ⟨.number ds, place⟩ ∈ lexemes) :
    IsNumber ds ∧ NumberEnds ds ((front ++ cs).drop (place + ds.length)) := by
  induction h with
  | nil => cases hl
  | blank _ _ ih =>
    rw [List.append_assoc] at ih
    exact ih hl
  | @symbol front cs s lexemes hend _ ih =>
    rw [List.append_assoc] at ih
    rcases List.mem_cons.mp hl with heq | hl
    · obtain ⟨rfl, rfl⟩ := Lexeme.mk.inj heq
      have hdrop : (front ++ (ds ++ cs)).drop (front.length + ds.length) = cs := by
        rw [← List.append_assoc, ← List.length_append, List.drop_left]
      rw [show (Symbol.number ds).chars = ds from rfl, hdrop]
      exact hend ds rfl
    · exact ih hl

/-- Each lexeme spells its own symbol. -/
theorem spells (h : LaidOut front cs lexemes) :
    ∀ l ∈ lexemes, Spells l.symbol.chars [l.symbol] := by
  induction h with
  | nil => exact List.forall_mem_nil _
  | blank _ _ ih => exact ih
  | symbol hend _ ih => exact List.forall_mem_cons.mpr ⟨hend.spells, ih⟩

end LaidOut

/-- Symbols with single blanks between them are read back. -/
theorem spells_intercalate {symbols : List Symbol} (h : ∀ s ∈ symbols, Spells s.chars [s]) :
    Spells ([' '].intercalate (symbols.map Symbol.chars)) symbols := by
  induction symbols with
  | nil => exact .nil
  | cons s symbols ih =>
    obtain ⟨hs, hrest⟩ := List.forall_mem_cons.mp h
    cases symbols with
    | nil => simpa using hs
    | cons t symbols =>
      rw [List.map_cons, List.map_cons, List.intercalate_cons_cons]
      have hblank : Spells (' ' :: [' '].intercalate ((t :: symbols).map Symbol.chars))
          (t :: symbols) := .blank (by decide) (ih hrest)
      refine (List.append_assoc _ _ _).symm ▸ hs.append hblank fun c hc => ?_
      obtain rfl : ' ' = c := by simpa using hc
      exact not_isNumberChar_of_isBlank (by decide)

/-! ## Points -/

/-- A point behind the text is taken by the number at its end: the text ends with digits that no
point and no more digits stand before. -/
def TakesPoint (before : List Char) : Prop :=
  ∃ front ds, before = front ++ ds ∧ IsDigits ds ∧ ds ≠ []
    ∧ ∀ c, front.getLast? = some c → ¬ IsNumberChar c

/-- A point that the number before it does not take, and that no digit stands right behind. -/
def StrayPoint (before after : List Char) : Prop :=
  ¬ TakesPoint before ∧ ∀ c, after.head? = some c → isAsciiDigit c = false

/-- A place between two texts where the scan takes a turn: what stands behind it was not left over
by a number before it. -/
structure Boundary (front cs : List Char) : Prop where
  digit : ∀ d, cs.head? = some d → isAsciiDigit d = true →
    ∀ c, front.getLast? = some c → ¬ IsNumberChar c
  point : cs.head? = some '.' → ¬ TakesPoint front

theorem takesPoint_append {front ds : List Char} (hds : IsDigits ds) (hne : ds ≠ [])
    (hfront : ∀ c, front.getLast? = some c → ¬ IsNumberChar c) : TakesPoint (front ++ ds) :=
  ⟨front, ds, rfl, hds, hne, hfront⟩

/-- A point is taken right behind a digit only. -/
theorem TakesPoint.exists_digit {before : List Char} (h : TakesPoint before) :
    ∃ c, before.getLast? = some c ∧ isAsciiDigit c = true := by
  obtain ⟨front, ds, rfl, hds, hne, -⟩ := h
  exact ⟨ds.getLast hne, by simp [List.getLast?_append, List.getLast?_eq_some_getLast hne],
    hds _ (List.getLast_mem hne)⟩

/-- A number that has its point takes no other one. -/
theorem not_takesPoint_of_pointed {front ds fs : List Char} (hfs : IsDigits fs) :
    ¬ TakesPoint (front ++ (ds ++ '.' :: fs)) := by
  rintro ⟨other, es, hsplit, hes, hne, hother⟩
  have hassoc : (front ++ ds ++ ['.']) ++ fs = other ++ es := by
    rw [← hsplit]
    simp
  rcases List.append_eq_append_iff.mp hassoc with ⟨more, rfl, hmore⟩ | ⟨more, hlast, rfl⟩
  · -- the digits begin behind the point, so that it or a digit stands before them
    rcases List.eq_nil_or_concat more with rfl | ⟨init, c, rfl⟩
    · exact hother '.' (by simp) (Or.inr rfl)
    · rw [List.concat_eq_append] at hother hmore
      refine hother c (by rw [← List.append_assoc, List.getLast?_concat]) (Or.inl (hfs c ?_))
      rw [hmore]
      simp
  · -- the digits begin before the point and hold it
    rcases List.eq_nil_or_concat more with rfl | ⟨init, c, rfl⟩
    · rw [List.append_nil] at hlast
      exact hother '.' (by rw [← hlast]; simp) (Or.inr rfl)
    · rw [List.concat_eq_append, ← List.append_assoc] at hlast
      obtain rfl : '.' = c := by simpa using (List.append_inj' hlast rfl).2
      exact absurd (hes '.' (by simp)) (by decide)

theorem boundary_nil (cs : List Char) : Boundary [] cs where
  digit := nofun
  point := by
    rintro - ⟨front, ds, hsplit, -, hne, -⟩
    exact hne (List.append_eq_nil_iff.mp hsplit.symm).2

/-- Behind a character that belongs to no number the scan takes a turn. -/
theorem boundary_behind {c : Char} (hc : ¬ IsNumberChar c) (front cs : List Char) :
    Boundary (front ++ [c]) cs where
  digit := by
    intro _ _ _ d hd
    obtain rfl : c = d := by simpa using hd
    exact hc
  point := by
    intro _ htakes
    obtain ⟨d, hd, hdigit⟩ := htakes.exists_digit
    obtain rfl : c = d := by simpa using hd
    exact hc (Or.inl hdigit)

/-- Behind a symbol the scan takes a turn. -/
theorem Symbol.EndsAt.boundary {s : Symbol} {cs : List Char} (h : s.EndsAt cs) (front : List Char) :
    Boundary (front ++ s.chars) cs := by
  rcases h.cases with ⟨ds, rfl, hds, hend⟩ | ⟨c, hchars, hc⟩
  · refine ⟨fun d hd hdigit => ?_, fun hpoint => ?_⟩
    · rw [(hend d hd).1] at hdigit
      cases hdigit
    · show ¬ TakesPoint (front ++ ds)
      cases hds with
      | whole hdigits _ => exact absurd (hdigits '.' ((hend '.' hpoint).2 rfl)) (by decide)
      | pointed _ hfs _ => exact not_takesPoint_of_pointed hfs
  · rw [hchars]
    refine boundary_behind (fun hnumber => ?_) front cs
    rw [hnumber.not_sign] at hc
    cases hc

/-- A point in a number is its first character, with a digit behind it, or stands behind digits. -/
theorem IsNumber.point_cases {ds fs : List Char} (h : IsNumber (ds ++ '.' :: fs)) :
    (ds = [] ∧ ∃ d, fs.head? = some d ∧ isAsciiDigit d = true) ∨ ds ≠ [] ∧ IsDigits ds := by
  -- there is no other point in it
  generalize htext : ds ++ '.' :: fs = text at h
  cases h with
  | whole hdigits _ => exact absurd (hdigits '.' (by rw [← htext]; simp)) (by decide)
  | @pointed es gs hes hgs hne =>
    have hds : '.' ∉ es := fun hmem => absurd (hes '.' hmem) (by decide)
    have hgs' : '.' ∉ gs := fun hmem => absurd (hgs '.' hmem) (by decide)
    obtain ⟨rfl, rfl⟩ : ds = es ∧ fs = gs := by
      rcases List.append_eq_append_iff.mp htext with ⟨more, rfl, hmore⟩ | ⟨more, rfl, hmore⟩
      · cases more with
        | nil => exact ⟨by simp, (List.cons.inj hmore).2⟩
        | cons c more =>
          obtain ⟨rfl, -⟩ := List.cons.inj hmore
          exact absurd (by simp) hds
      · cases more with
        | nil => exact ⟨by simp, (List.cons.inj hmore).2.symm⟩
        | cons c more =>
          obtain ⟨rfl, rfl⟩ := List.cons.inj hmore
          exact absurd (by simp) hgs'
    by_cases hempty : ds = []
    · obtain ⟨d, gs, rfl⟩ := List.exists_cons_of_ne_nil (hne.resolve_left (not_not.mpr hempty))
      exact Or.inl ⟨hempty, d, rfl, hgs d List.mem_cons_self⟩
    · exact Or.inr ⟨hempty, hes⟩

/-- What the points of a text that is cut into lexemes are: a number takes them, or they start one.
-/
inductive PointIn (lexemes : List Lexeme) (before after : List Char) : Prop where
  | taken (htakes : TakesPoint before)
      (hinside : ∃ l ∈ lexemes, l.place < before.length ∧ before.length < l.stop)
  | leading (hfree : ¬ TakesPoint before)
      (hnot : ¬ ∃ l ∈ lexemes, l.place < before.length ∧ before.length < l.stop)
      {d : Char} (hd : after.head? = some d) (hdigit : isAsciiDigit d = true)

/-- A lexeme that ends before the point has no part in it. -/
theorem PointIn.cons {lexemes : List Lexeme} {before after : List Char}
    (h : PointIn lexemes before after) {l : Lexeme} (hl : l.stop ≤ before.length) :
    PointIn (l :: lexemes) before after := by
  cases h with
  | taken htakes hinside =>
    obtain ⟨other, hmem, hplace⟩ := hinside
    exact .taken htakes ⟨other, List.mem_cons_of_mem _ hmem, hplace⟩
  | leading hfree hnot hd hdigit =>
    refine .leading hfree ?_ hd hdigit
    rw [List.exists_mem_cons_iff]
    exact not_or.mpr ⟨fun hplace => Nat.not_lt.mpr hl hplace.2, hnot⟩

/-- A point in a number is taken by the digits before it, or starts the number. -/
theorem LaidOut.pointIn_number {front cs ds fs : List Char} {lexemes : List Lexeme}
    (hnumber : IsNumber (ds ++ '.' :: fs)) (hboundary : Boundary front ((ds ++ '.' :: fs) ++ cs))
    (rest : LaidOut (front ++ (ds ++ '.' :: fs)) cs lexemes) :
    PointIn (⟨.number (ds ++ '.' :: fs), front.length⟩ :: lexemes) (front ++ ds) (fs ++ cs) := by
  rcases hnumber.point_cases with ⟨rfl, d, hd, hdigit⟩ | ⟨hne, hdigits⟩
  · rw [List.append_nil]
    refine .leading (hboundary.point rfl) ?_ (d := d) ?_ hdigit
    · rintro ⟨l, hl, hplace, -⟩
      rcases List.mem_cons.mp hl with rfl | hl
      · exact Nat.lt_irrefl _ hplace
      · have hbehind := rest.apart.1 l hl
        rw [List.length_append] at hbehind
        omega
    · rw [List.head?_append, hd]
      rfl
  · have hfront : ∀ c, front.getLast? = some c → ¬ IsNumberChar c := by
      obtain ⟨d, ds, rfl⟩ := List.exists_cons_of_ne_nil hne
      exact hboundary.digit d rfl (hdigits d List.mem_cons_self)
    have hstop : front.length + ds.length < front.length + (ds ++ '.' :: fs).length := by simp
    refine .taken (takesPoint_append hdigits hne hfront) ⟨_, List.mem_cons_self, ?_, ?_⟩
    · rw [List.length_append]
      exact Nat.lt_add_of_pos_right (List.length_pos_iff.mpr hne)
    · rw [List.length_append]
      exact hstop

/-- Of a character of a text that is split in two, either the first part goes on behind it or the
second part begins before it. -/
theorem append_cons_cases {a b w v : List Char} {c : Char} (h : a ++ b = w ++ c :: v) :
    (∃ rest, w = a ++ rest ∧ b = rest ++ c :: v) ∨ ∃ f, a = w ++ c :: f ∧ v = f ++ b := by
  rcases List.append_eq_append_iff.mp h with ⟨rest, rfl, hrest⟩ | ⟨rest, rfl, hrest⟩
  · exact Or.inl ⟨rest, rfl, hrest⟩
  · cases rest with
    | nil => exact Or.inl ⟨[], by simp, hrest.symm⟩
    | cons d rest =>
      obtain ⟨rfl, rfl⟩ := List.cons.inj hrest
      exact Or.inr ⟨rest, rfl, rfl⟩

/-- **Every point of a text that is cut into lexemes belongs to a number.** -/
theorem LaidOut.pointIn {front cs : List Char} {lexemes : List Lexeme}
    (h : LaidOut front cs lexemes) (hboundary : Boundary front cs) {w after : List Char}
    (hcs : cs = w ++ '.' :: after) : PointIn lexemes (front ++ w) after := by
  induction h generalizing w with
  | nil => simp at hcs
  | @blank front cs c lexemes hc rest ih =>
    cases w with
    | nil =>
      obtain ⟨rfl, -⟩ := List.cons.inj hcs
      exact absurd hc (by decide)
    | cons d w =>
      obtain ⟨rfl, hrest⟩ := List.cons.inj hcs
      have hpoint := ih (boundary_behind (not_isNumberChar_of_isBlank hc) front cs) hrest
      rwa [List.append_assoc] at hpoint
  | @symbol front cs s lexemes hend rest ih =>
    rcases append_cons_cases hcs with ⟨v, rfl, hrest⟩ | ⟨f, hchars, rfl⟩
    · -- the point is behind the symbol
      have hpoint := ih (hend.boundary front) hrest
      rw [List.append_assoc] at hpoint
      refine hpoint.cons ?_
      show front.length + s.chars.length ≤ _
      simp only [List.length_append]
      omega
    · -- the point is in the symbol, which is a number then
      rcases hend.cases with ⟨ds, rfl, hds, -⟩ | ⟨c, hsign, hc⟩
      · obtain rfl : ds = w ++ '.' :: f := hchars
        exact rest.pointIn_number hds hboundary
      · have hmem : '.' ∈ [c] := by
          rw [← hsign, hchars]
          simp
        obtain rfl := List.mem_singleton.mp hmem
        cases hc

/-- A digit or a digit behind a point starts a number. -/
theorem numberPrefix?_of_digit {c : Char} (hc : isAsciiDigit c = true) (cs : List Char) :
    numberPrefix? (c :: cs) ≠ none := by
  have htake : (c :: cs).takeWhile isAsciiDigit ≠ [] := by simp [hc]
  rw [numberPrefix?]
  split <;> simp [htake]

theorem numberPrefix?_point_of_digit {c : Char} (hc : isAsciiDigit c = true) (cs : List Char) :
    numberPrefix? ('.' :: c :: cs) ≠ none := by
  have htake : (c :: cs).takeWhile isAsciiDigit ≠ [] := by simp [hc]
  have hpoint : ('.' :: c :: cs).dropWhile isAsciiDigit = '.' :: c :: cs :=
    List.dropWhile_cons_of_neg (by decide)
  rw [numberPrefix?_point hpoint]
  simp [htake]

/-- **A text of permitted characters is refused for a stray point only.** -/
theorem exists_stray_of_scanFrom {front cs : List Char} (hboundary : Boundary front cs)
    (hchars : ∀ c ∈ cs, isExpressionChar c = true) {fault : SyntaxFault}
    (h : Lexeme.scanFrom front.length 0 cs = .error fault) :
    ∃ w after, cs = w ++ '.' :: after ∧ StrayPoint (front ++ w) after
      ∧ fault = .malformedNumber '.' (front ++ w).length := by
  match cs with
  | [] => cases h
  | c :: cs =>
    rcases scanFrom_cases front.length c cs with
      ⟨hblank, hscan⟩ | ⟨s, rest, htext, hend, hscan⟩ | ⟨hblank, hsign, hnumber, hscan⟩
    · rw [hscan] at h
      obtain ⟨w, after, rfl, hstray, hfault⟩ :=
        exists_stray_of_scanFrom (boundary_behind (not_isNumberChar_of_isBlank hblank) front cs)
          (fun d hd => hchars d (List.mem_cons_of_mem _ hd)) (by rwa [List.length_append])
      rw [List.append_assoc] at hstray hfault
      exact ⟨c :: w, after, rfl, hstray, hfault⟩
    · have hshort := length_le_of_cons_eq_append htext hend.ne_nil
      rw [hscan] at h
      cases hrest : Lexeme.scanFrom (front.length + s.chars.length) 0 rest with
      | ok lexemes =>
        rw [hrest] at h
        cases h
      | error other =>
        rw [hrest] at h
        obtain rfl : other = fault := Except.error.inj h
        obtain ⟨w, after, rfl, hstray, hfault⟩ :=
          exists_stray_of_scanFrom (hend.boundary front)
            (fun d hd => hchars d (by rw [htext]; exact List.mem_append_right _ hd))
            (by rwa [List.length_append])
        rw [List.append_assoc] at hstray hfault
        exact ⟨s.chars ++ w, after, by rw [htext, List.append_assoc], hstray, hfault⟩
    · rw [hscan] at h
      -- what starts no symbol and is no blank is a digit or a point, and no digit
      have hpermitted := hchars c List.mem_cons_self
      simp only [isExpressionChar, hblank, hsign, Option.isSome_none, Bool.or_false,
        Bool.or_eq_true, beq_iff_eq] at hpermitted
      rcases hpermitted with hdigit | rfl
      · exact absurd hnumber (numberPrefix?_of_digit hdigit cs)
      · refine ⟨[], cs, rfl, ⟨?_, fun d hd => ?_⟩, ?_⟩
        · rw [List.append_nil]
          exact hboundary.point rfl
        · obtain ⟨rest, rfl⟩ := List.head?_eq_some_iff.mp hd
          rw [← Bool.not_eq_true]
          exact fun hdigit => numberPrefix?_point_of_digit hdigit rest hnumber
        · rw [List.append_nil]
          exact (Except.error.inj h).symm
  termination_by cs.length

/-! ## Texts that are refused -/

/-- The characters that an expression may hold, written out. -/
theorem isExpressionChar_iff {c : Char} :
    isExpressionChar c = true ↔ c ∈ "0123456789.+-*/()".toList ∨ isBlank c = true := by
  have hall : "0123456789.+-*/()".toList.all isExpressionChar = true := by decide
  have hdigits : ∀ n < 10, Char.ofNat (48 + n) ∈ "0123456789.+-*/()".toList := by decide
  have hsigns : ['+', '-', '*', '/', '(', ')'].all ("0123456789.+-*/()".toList.contains ·) = true :=
    by decide
  constructor
  · intro h
    simp only [isExpressionChar, Bool.or_eq_true, beq_iff_eq] at h
    rcases h with ((hdigit | rfl) | hsign) | hblank
    · simp only [isAsciiDigit, Bool.and_eq_true, decide_eq_true_eq] at hdigit
      have hmem := hdigits (c.toNat - 48) (by omega)
      rw [Nat.add_sub_cancel' hdigit.1, Char.ofNat_toNat] at hmem
      exact Or.inl hmem
    · exact Or.inl (by decide)
    · obtain ⟨s, hs⟩ := Option.isSome_iff_exists.mp hsign
      exact Or.inl (List.contains_iff_mem.mp
        (List.all_eq_true.mp hsigns c (mem_signs_of_ofChar? hs)))
    · exact Or.inr hblank
  · rintro (hmem | hblank)
    · exact List.all_eq_true.mp hall c hmem
    · simp [isExpressionChar, hblank]

/-- What a text is refused for, at the place where it stands. -/
inductive Refused (cs : List Char) : SyntaxFault → Prop where
  | character {before after : List Char} {c : Char} (htext : cs = before ++ c :: after)
      (hbefore : ∀ d ∈ before, isExpressionChar d = true) (hc : isExpressionChar c = false) :
      Refused cs (.invalidCharacter c before.length)
  | point {before after : List Char} (htext : cs = before ++ '.' :: after)
      (hchars : ∀ c ∈ cs, isExpressionChar c = true) (hstray : StrayPoint before after) :
      Refused cs (.malformedNumber '.' before.length)

theorem firstInvalid?_eq_some {cs : List Char} {c : Char} {place i : Nat}
    (h : Lexeme.firstInvalid? place cs = some (c, i)) :
    ∃ before after, cs = before ++ c :: after ∧ i = place + before.length
      ∧ (∀ d ∈ before, isExpressionChar d = true) ∧ isExpressionChar c = false := by
  induction cs generalizing place with
  | nil => cases h
  | cons d cs ih =>
    rw [Lexeme.firstInvalid?] at h
    split at h
    · next hd =>
      obtain ⟨before, after, rfl, rfl, hbefore, hc⟩ := ih h
      refine ⟨d :: before, after, rfl, ?_, List.forall_mem_cons.mpr ⟨hd, hbefore⟩, hc⟩
      rw [List.length_cons]
      omega
    · next hd =>
      cases h
      exact ⟨[], cs, rfl, rfl, List.forall_mem_nil _, by simpa using hd⟩

theorem isExpressionChar_of_firstInvalid? {cs : List Char} {place : Nat}
    (h : Lexeme.firstInvalid? place cs = none) : ∀ c ∈ cs, isExpressionChar c = true := by
  induction cs generalizing place with
  | nil => exact List.forall_mem_nil _
  | cons c cs ih =>
    rw [Lexeme.firstInvalid?] at h
    split at h
    · next hc => exact List.forall_mem_cons.mpr ⟨hc, ih h⟩
    · cases h

theorem scanFrom_of_scan {cs : List Char} {lexemes : List Lexeme}
    (h : Lexeme.scan cs = .ok lexemes) :
    (∀ c ∈ cs, isExpressionChar c = true) ∧ Lexeme.scanFrom 0 0 cs = .ok lexemes := by
  rw [Lexeme.scan] at h
  split at h
  · cases h
  · next hvalid => exact ⟨isExpressionChar_of_firstInvalid? hvalid, h⟩

theorem scan_eq_scanFrom {cs : List Char} (h : ∀ c ∈ cs, isExpressionChar c = true) :
    Lexeme.scan cs = Lexeme.scanFrom 0 0 cs := by
  rw [Lexeme.scan, firstInvalid?_eq_none h]

theorem refused_of_scan {cs : List Char} {fault : SyntaxFault}
    (h : Lexeme.scan cs = .error fault) : Refused cs fault := by
  cases hinvalid : Lexeme.firstInvalid? 0 cs with
  | some found =>
    obtain ⟨c, i⟩ := found
    obtain ⟨before, after, htext, rfl, hbefore, hc⟩ := firstInvalid?_eq_some hinvalid
    rw [Lexeme.scan, hinvalid, Nat.zero_add] at h
    cases h
    exact .character htext hbefore hc
  | none =>
    have hchars := isExpressionChar_of_firstInvalid? hinvalid
    rw [scan_eq_scanFrom hchars] at h
    obtain ⟨before, after, htext, hstray, rfl⟩ :=
      exists_stray_of_scanFrom (boundary_nil cs) hchars h
    exact .point htext hchars hstray

/-! ## The main result -/

/-- How a scan cuts a text: the lexemes stand in order and apart from each other, each is what is
written in its place, and what is not part of one is blank. A number is as long as it can be,
whatever scripts its digits may be of, and it holds the points that it takes. -/
structure CutInto (cs : List Char) (lexemes : List Lexeme) : Prop where
  ordered : lexemes.Pairwise fun a b => a.place < b.place
  apart : lexemes.Pairwise fun a b => a.stop ≤ b.place
  text : ∀ l ∈ lexemes, l.symbol.chars <+: cs.drop l.place
  gaps : ∀ (i : Nat) (c : Char), cs[i]? = some c →
    (isBlank c = true ↔ ∀ l ∈ lexemes, ¬ (l.place ≤ i ∧ i < l.stop))
  longest : ∀ (ds : List Char) (place : Nat), ⟨.number ds, place⟩ ∈ lexemes → IsNumeral ds
    ∧ ∀ more, more ≠ [] → more <+: cs.drop (place + ds.length) → ¬ IsNumeral (ds ++ more)
  points : ∀ before after, cs = before ++ '.' :: after →
    (TakesPoint before ↔ ∃ l ∈ lexemes, l.place < before.length ∧ before.length < l.stop)

theorem cutInto_of_scanFrom {cs : List Char} {lexemes : List Lexeme}
    (hchars : ∀ c ∈ cs, isExpressionChar c = true) (h : Lexeme.scanFrom 0 0 cs = .ok lexemes) :
    CutInto cs lexemes := by
  have hlaid : LaidOut [] cs lexemes := laidOut_of_scanFrom h
  have hapart := hlaid.apart.2
  refine ⟨?_, hapart, hlaid.text, fun i c hc => ?_, fun ds place hl => ?_,
    fun before after hcs => ?_⟩
  · exact hapart.imp_of_mem fun {a b} ha _ hab => Nat.lt_of_lt_of_le (hlaid.place_lt_stop a ha) hab
  · have hcovered := hlaid.not_blank_iff (Nat.zero_le i) hc
    rw [← Bool.not_eq_false, hcovered]
    simp only [not_exists, not_and]
  · obtain ⟨hds, hend⟩ := hlaid.numberEnds hl
    have hnumeral : ∀ es, es <+: cs.drop place → (IsNumeral es ↔ IsNumber es) := fun es hes =>
      isNumeral_iff fun c hc => hchars c (List.drop_subset _ _ (hes.subset hc))
    have hown : ds <+: cs.drop place := hlaid.text _ hl
    refine ⟨(hnumeral ds hown).mpr hds, fun more hne hmore => ?_⟩
    have hlonger : ds ++ more <+: cs.drop place := by
      obtain ⟨rest, hrest⟩ := hown
      rw [← hrest]
      refine (List.prefix_append_right_inj ds).mpr ?_
      rwa [← List.drop_drop, ← hrest, List.drop_left] at hmore
    rw [hnumeral _ hlonger]
    exact hend.not_isNumber_append hmore hne
  · cases hlaid.pointIn (boundary_nil cs) hcs with
    | taken htakes hinside => exact iff_of_true htakes hinside
    | leading hfree hnot _ _ => exact iff_of_false hfree hnot

/-- **Scanning loses nothing.** A text is refused exactly if some character of it is none of
expressions, or if some point is taken by no number and has no digit right behind it; the fault
tells which, and where. Any other text is cut into its lexemes with nothing but blanks between them,
each number as long as it can be, and these are read back from their texts with single blanks
between them. At each turn the scan fails or advances. -/
theorem scan_loses_nothing (cs : List Char) :
    ((∃ fault, Lexeme.scan cs = .error fault)
        ↔ (∃ c ∈ cs, ¬ (c ∈ "0123456789.+-*/()".toList ∨ isBlank c = true))
          ∨ ∃ before after, cs = before ++ '.' :: after ∧ StrayPoint before after)
      ∧ (∀ fault, Lexeme.scan cs = .error fault → Refused cs fault)
      ∧ (∀ lexemes, Lexeme.scan cs = .ok lexemes → CutInto cs lexemes
        ∧ ∃ again, Lexeme.scan ([' '].intercalate (lexemes.map (·.symbol.chars))) = .ok again
          ∧ again.map (·.symbol) = lexemes.map (·.symbol))
      ∧ ∀ (place : Nat) (c : Char) (rest : List Char),
        Lexeme.scanFrom place 0 (c :: rest) = .error (.malformedNumber c place)
          ∨ ∃ (n : Nat) (found : List Lexeme), 0 < n ∧ n ≤ (c :: rest).length
            ∧ Lexeme.scanFrom place 0 (c :: rest)
              = (Lexeme.scanFrom (place + n) 0 ((c :: rest).drop n)).map (found ++ ·) := by
  simp only [← isExpressionChar_iff]
  refine ⟨⟨?_, ?_⟩, fun fault => refused_of_scan, fun lexemes h => ?_, scanFrom_advances⟩
  · rintro ⟨fault, h⟩
    cases refused_of_scan h with
    | @character before after c htext _ hc =>
      exact Or.inl ⟨c, by rw [htext]; simp, by simp [hc]⟩
    | @point before after htext _ hstray => exact Or.inr ⟨before, after, htext, hstray⟩
  · intro hrefused
    cases h : Lexeme.scan cs with
    | error fault => exact ⟨fault, rfl⟩
    | ok lexemes =>
      exfalso
      obtain ⟨hchars, hscan⟩ := scanFrom_of_scan h
      rcases hrefused with ⟨c, hmem, hc⟩ | ⟨before, after, htext, hfree, hnot⟩
      · exact hc (hchars c hmem)
      · have hlaid : LaidOut [] cs lexemes := laidOut_of_scanFrom hscan
        cases hlaid.pointIn (boundary_nil cs) htext with
        | taken htakes _ => exact hfree htakes
        | leading _ _ hd hdigit =>
          rw [hnot _ hd] at hdigit
          cases hdigit
  · obtain ⟨hchars, hscan⟩ := scanFrom_of_scan h
    refine ⟨cutInto_of_scanFrom hchars hscan, ?_⟩
    have hlaid : LaidOut [] cs lexemes := laidOut_of_scanFrom hscan
    have hspells := spells_intercalate (List.forall_mem_map.mpr hlaid.spells)
    rw [List.map_map] at hspells
    exact scan_iff_spells.mpr hspells

/-- Of the points of `1..2` the first ends a number and the second starts one. A number that has its
point takes no other, so the last one of `1.2.` is refused. -/
theorem scan_loses_nothing_points :
    (∃ lexemes, Lexeme.scan "1..2 *-.5".toList = .ok lexemes ∧ CutInto "1..2 *-.5".toList lexemes
        ∧ lexemes.map (fun l => (String.ofList l.symbol.chars, l.place))
          = [("1.", 0), (".2", 2), ("*", 5), ("-", 6), (".5", 7)])
      ∧ Refused "1.2.".toList (.malformedNumber '.' 3) := by
  constructor
  · have hscan : Lexeme.scan "1..2 *-.5".toList = .ok [⟨.number "1.".toList, 0⟩,
        ⟨.number ".2".toList, 2⟩, ⟨.operator .mul, 5⟩, ⟨.operator .sub, 6⟩,
        ⟨.number ".5".toList, 7⟩] := by rfl
    exact ⟨_, hscan, ((scan_loses_nothing _).2.2.1 _ hscan).1, by decide⟩
  · exact (scan_loses_nothing _).2.1 _ (by rfl)

end Tariff.Expression

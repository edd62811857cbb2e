import Tariff.Price
import Tariff.Proofs.Expression.Exchange
import Tariff.Proofs.Expression.Words

/-!
# Contributions are factors

Whatever stands for a token is one factor of the grammar. A finite number is written as the text of
a number, or as a negative number between parentheses (`Number.factor_cases`); the text of a
sub-expression goes between parentheses, and the blanks around it and the names in it do not matter
(`Contribution.exists_tree`).
-/

namespace Tariff

open Numeral Text Expression

/-! ## Digits and points -/

theorem isAsciiDigit_eq (c : Char) : isAsciiDigit c = c.isDigit := by
  rw [Bool.eq_iff_iff]
  simp only [isAsciiDigit, Char.isDigit, Bool.and_eq_true, decide_eq_true_eq, ge_iff_le,
    UInt32.le_iff_toNat_le]
  rfl

theorem isDigits_digits (n : Nat) : IsDigits (digits n) := by
  intro c hc
  rw [isAsciiDigit_eq]
  exact Nat.isDigit_of_mem_toDigits (by decide) (by decide) hc

theorem digits_ne_nil (n : Nat) : digits n ≠ [] := Nat.toDigits_ne_nil

theorem isNumber_digits (n : Nat) : IsNumber (digits n) :=
  .whole (isDigits_digits n) (digits_ne_nil n)

theorem isDigits_zeros (k : Nat) : IsDigits (List.replicate k '0') := by
  intro c hc
  obtain rfl := List.eq_of_mem_replicate hc
  decide

/-- Digits with a point among them are a number, wherever the point is put. -/
theorem isNumber_placePoint {ds : List Char} (hds : IsDigits ds) (hne : ds ≠ []) (places : Int) :
    IsNumber (Decimal.placePoint ds places) := by
  unfold Decimal.placePoint
  split
  · have hzero : IsDigits ['0'] := by decide
    exact .pointed hzero ((isDigits_zeros _).append hds) (Or.inl (by simp))
  · next hplaces =>
    show IsNumber (if ds.length ≤ places.toNat then _ else _)
    split
    · exact .whole (hds.append (isDigits_zeros _)) (by simp [hne])
    · refine .pointed (fun c hc => hds c (List.mem_of_mem_take hc))
        (fun c hc => hds c (List.mem_of_mem_drop hc)) (Or.inl ?_)
      have hpos : 0 < places.toNat := by omega
      simp [hne, Nat.pos_iff_ne_zero.mp hpos]

/-- A number needs no parentheses. -/
theorem guardMinus_of_isNumber {ds : List Char} (h : IsNumber ds) : guardMinus ds = ds := by
  have hminus : '-' ∉ ds := by
    intro hmem
    rcases h.isNumberChar '-' hmem with h | h <;> revert h <;> decide
  unfold guardMinus
  split
  · exact absurd List.mem_cons_self hminus
  · rfl

/-! ## Numbers as factors -/

/-- The digits of a decimal that is written without an exponent. -/
def Decimal.fixedDigits (d : Decimal) : List Char :=
  if d.coeff = 0 ∧ 0 < d.exp then digits d.coeff
  else Decimal.placePoint (digits d.coeff) (d.exp + (digits d.coeff).length)

theorem Decimal.isNumber_fixedDigits (d : Decimal) : IsNumber d.fixedDigits := by
  unfold Decimal.fixedDigits
  split
  · exact isNumber_digits d.coeff
  · exact isNumber_placePoint (isDigits_digits _) (digits_ne_nil d.coeff) _

theorem Decimal.fixedText_toList (d : Decimal) :
    d.fixedText.toList = if d.neg then '-' :: d.fixedDigits else d.fixedDigits := by
  show (String.ofList (if d.neg then '-' :: d.fixedDigits else d.fixedDigits)).toList = _
  exact String.toList_ofList

/-- A number as it stands for a token: by its digits, and between parentheses behind a minus. -/
def signedFactor (neg : Bool) (ds : List Char) : List Char :=
  if neg then '(' :: '-' :: (ds ++ [')']) else ds

theorem guardMinus_signed {ds : List Char} (h : IsNumber ds) (neg : Bool) :
    guardMinus (if neg then '-' :: ds else ds) = signedFactor neg ds := by
  cases neg with
  | true => rfl
  | false => exact guardMinus_of_isNumber h

theorem guardMinus_integerText (n : Int) :
    guardMinus (integerText n).toList = signedFactor (decide (n < 0)) (digits n.natAbs) := by
  have htext : (integerText n).toList
      = if decide (n < 0) then '-' :: digits n.natAbs else digits n.natAbs := by
    unfold integerText
    split <;> simp_all
  rw [htext, guardMinus_signed (isNumber_digits _)]

theorem Decimal.factor_eq (d : Decimal) : d.factor = signedFactor d.neg d.fixedDigits := by
  rw [Decimal.factor, Decimal.fixedText_toList, guardMinus_signed d.isNumber_fixedDigits]

/-- Only the numerator of a number decides whether it is below zero. -/
theorem Number.isBelow_zero {n : Number} {k : Int} {d : Nat} (h : n.place? = some (0, k, d)) :
    n.isBelow .zero = decide (k < 0) := by
  have hcompare : (compare (0 : Int) 0).then (compare (k * (1 : Nat)) (0 * (d : Int)))
      = compare k 0 := by
    simp
  have hplaces : n.compare? .zero = some (compare k 0) := by
    rw [Number.compare?, h, ← hcompare]
    rfl
  rw [Number.isBelow, hplaces, Bool.eq_iff_iff, beq_iff_eq, Option.some_inj, decide_eq_true_iff,
    Std.compare_eq_lt]

/-- The whole number that a quotient is has the sign of its numerator. -/
theorem ediv_neg_iff {k : Int} {d : Nat} (hd : 0 < d) (h : k % d = 0) : k / d < 0 ↔ k < 0 := by
  have hk : k = d * (k / d) := by
    have hdiv := Int.mul_ediv_add_emod k d
    omega
  constructor
  · intro hneg
    rw [hk]
    exact Int.mul_neg_of_pos_of_neg (by omega) hneg
  · intro hneg
    by_contra hpos
    have hprod : 0 ≤ (d : Int) * (k / d) := Int.mul_nonneg (by omega) (by omega)
    omega

/-- **A finite number is written by its digits**, and a negative one between parentheses. -/
theorem Number.factor_eq {n : Number} (h : n.isFinite = true) :
    ∃ ds, IsNumber ds ∧ n.factor = signedFactor (n.isBelow .zero) ds := by
  cases n with
  | whole n =>
    refine ⟨digits n.natAbs, isNumber_digits _, ?_⟩
    rw [Number.isBelow_zero (n := .whole n) rfl]
    exact guardMinus_integerText n
  | real x =>
    cases x with
    | infinite neg => cases h
    | nan => cases h
    | finite neg m e =>
      let k : Int := if neg then -(m * Int.pow 2 e.toNat) else m * Int.pow 2 e.toNat
      let d : Nat := Nat.pow 2 (-e).toNat
      have hd : 0 < d := Nat.pow_pos Nat.two_pos
      have hplace : (Number.real (.finite neg m e)).place? = some (0, k, d) := rfl
      rw [Number.isBelow_zero hplace]
      have hwhole : (Binary64.finite neg m e).toInt? = if k % d = 0 then some (k / d) else none :=
        rfl
      by_cases hk : k % d = 0
      · rw [if_pos hk] at hwhole
        refine ⟨digits (k / d).natAbs, isNumber_digits _, ?_⟩
        have hfactor : (Number.real (.finite neg m e)).factor
            = guardMinus (integerText (k / d)).toList := by simp only [Number.factor, hwhole]
        rw [hfactor, guardMinus_integerText, decide_eq_decide.mpr (ediv_neg_iff hd hk)]
      · rw [if_neg hk] at hwhole
        have hm : m ≠ 0 := by
          rintro rfl
          exact hk (by simp [k])
        let shortest := Binary64.shortest m e
        have hdecimal : (Binary64.finite neg m e).decimal?
            = some ⟨neg, shortest.1, shortest.2⟩ := by
          rw [Binary64.decimal?, if_neg hm]
        refine ⟨_, Decimal.isNumber_fixedDigits ⟨neg, shortest.1, shortest.2⟩, ?_⟩
        have hfactor : (Number.real (.finite neg m e)).factor
            = Decimal.factor ⟨neg, shortest.1, shortest.2⟩ := by
          simp only [Number.factor, hwhole, hdecimal]
        have hpow : 0 < (m : Int) * Int.pow 2 e.toNat :=
          Int.mul_pos (by omega) (Int.pow_pos (by decide))
        have hneg : decide (k < 0) = neg := by
          cases neg with
          | true => simpa [k] using hpow
          | false => exact decide_eq_false (Int.not_lt.mpr (Int.le_of_lt hpow))
        rw [hfactor, Decimal.factor_eq, hneg]

/-- A factor that is a number, or a negative number between parentheses. -/
def IsNumberFactor (cs : List Char) : Prop :=
  ∃ ds, IsNumber ds ∧ (cs = ds ∨ cs = '(' :: '-' :: (ds ++ [')']))

/-- A finite number is written as a number, or as a negative one between parentheses. -/
theorem Number.factor_cases {n : Number} (h : n.isFinite = true) : IsNumberFactor n.factor := by
  obtain ⟨ds, hds, hfactor⟩ := Number.factor_eq h
  refine ⟨ds, hds, ?_⟩
  rw [hfactor]
  cases n.isBelow .zero with
  | true => exact Or.inr rfl
  | false => exact Or.inl rfl

theorem IsNumberFactor.spellsAtom {cs : List Char} (h : IsNumberFactor cs) : SpellsAtom cs := by
  obtain ⟨ds, hds, rfl | rfl⟩ := h
  · exact ⟨_, .of_isNumber hds, .number cs⟩
  · have hminus : Spells ('-' :: ds) [.operator .sub, .number ds] := .sign rfl (.of_isNumber hds)
    exact ⟨_, hminus.parenthesized, .group (.ofProduct (.ofFactor (.negate (.number ds))))⟩

theorem IsNumberFactor.exists_tree {cs : List Char} (h : IsNumberFactor cs) :
    ∃ t symbols, Spells cs symbols ∧ Derives .factor t symbols := by
  obtain ⟨row, hspells, hatom⟩ := h.spellsAtom
  obtain ⟨t, ht⟩ := hatom.exists_tree
  exact ⟨t, row, hspells, ht⟩

/-! ## Texts without names -/

/-- A text whose word characters are digits holds no name. -/
theorem isName_of_mem_pieces {cs : List Char}
    (h : ∀ c ∈ cs, isWordChar c = true → isAsciiDigit c = true) {w : List Char}
    (hw : Piece.word w ∈ pieces cs) : isName w = false := by
  obtain ⟨⟨hne, hall⟩, hmem⟩ := isWord_of_mem_pieces hw
  obtain ⟨c, w, rfl⟩ := List.exists_cons_of_ne_nil hne
  have hdigit := h c (hmem c List.mem_cons_self) (hall c List.mem_cons_self)
  rw [isAsciiDigit_eq] at hdigit
  simp [isName, hdigit]

theorem digit_of_mem_isNumber {ds : List Char} (h : IsNumber ds) :
    ∀ c ∈ ds, isWordChar c = true → isAsciiDigit c = true := by
  intro c hc hword
  rcases h.isNumberChar c hc with hdigit | rfl
  · exact hdigit
  · exact absurd hword (by decide)

theorem IsNumberFactor.noName {cs : List Char} (h : IsNumberFactor cs) {w : List Char}
    (hw : Piece.word w ∈ pieces cs) : isName w = false := by
  refine isName_of_mem_pieces ?_ hw
  obtain ⟨ds, hds, rfl | rfl⟩ := h
  · exact digit_of_mem_isNumber hds
  · intro c hc hword
    simp only [List.mem_cons, List.mem_append, List.not_mem_nil, or_false] at hc
    rcases hc with rfl | rfl | hc | rfl
    · exact absurd hword (by decide)
    · exact absurd hword (by decide)
    · exact digit_of_mem_isNumber hds c hc hword
    · exact absurd hword (by decide)

theorem IsNumberFactor.zeroed_eq_self {cs : List Char} (h : IsNumberFactor cs) :
    zeroed cs = cs :=
  Expression.zeroed_eq_self fun _ hw => h.noName hw

/-! ## Blanks around a text -/

/-- The code points of word characters. -/
theorem toNat_of_isWordChar {c : Char} (h : isWordChar c = true) :
    (48 ≤ c.toNat ∧ c.toNat ≤ 57) ∨ (65 ≤ c.toNat ∧ c.toNat ≤ 90) ∨ c.toNat = 95
      ∨ (97 ≤ c.toNat ∧ c.toNat ≤ 122) := by
  have hrange : ∀ {low high : UInt32}, low ≤ c.val → c.val ≤ high →
      low.toNat ≤ c.toNat ∧ c.toNat ≤ high.toNat := fun hlow hhigh =>
    ⟨UInt32.le_iff_toNat_le.mp hlow, UInt32.le_iff_toNat_le.mp hhigh⟩
  rcases Bool.or_eq_true_iff.mp h with halnum | hline
  · rcases Bool.or_eq_true_iff.mp halnum with halpha | hdigit
    · rcases Bool.or_eq_true_iff.mp halpha with hupper | hlower
      · have hbounds : 'A'.val ≤ c.val ∧ c.val ≤ 'Z'.val := of_decide_eq_true hupper
        exact Or.inr (Or.inl (hrange hbounds.1 hbounds.2))
      · obtain ⟨hlow, hhigh⟩ := Bool.and_eq_true_iff.mp hlower
        exact Or.inr (Or.inr (Or.inr (hrange (of_decide_eq_true hlow) (of_decide_eq_true hhigh))))
    · obtain ⟨hlow, hhigh⟩ := Bool.and_eq_true_iff.mp hdigit
      exact Or.inl (hrange (of_decide_eq_true hlow) (of_decide_eq_true hhigh))
  · obtain rfl := beq_iff_eq.mp hline
    exact Or.inr (Or.inr (Or.inl rfl))

theorem isWordChar_of_isBlank {c : Char} (h : isBlank c = true) : isWordChar c = false := by
  rw [← Bool.not_eq_true]
  intro hword
  have hcode := toNat_of_isWordChar hword
  simp only [isBlank, Bool.or_eq_true, Bool.and_eq_true, decide_eq_true_eq, beq_iff_eq] at h
  omega

theorem not_isNumberChar_of_isBlank {c : Char} (h : isBlank c = true) : ¬ IsNumberChar c := by
  intro hnumber
  rw [hnumber.not_blank] at h
  cases h

/-- A character outside words is no digit, so only a point belongs to numbers. -/
theorem not_isNumberChar_of_outside {c : Char} (hc : isWordChar c = false) (hpoint : c ≠ '.') :
    ¬ IsNumberChar c := by
  rintro (hdigit | rfl)
  · rw [isAsciiDigit_eq] at hdigit
    simp [isWordChar, Char.isAlphanum, hdigit] at hc
  · exact hpoint rfl

/-- No number goes on from a text that ends neither with a word nor with a point. -/
theorem parted_of_last {a : List Char} (ha : ∀ c, a.getLast? = some c → isWordChar c = false)
    (hpoint : a.getLast? ≠ some '.') (b : List Char) : Parted a b := by
  intro c d hc _ hnumber
  have hne : c ≠ '.' := by
    rintro rfl
    exact hpoint hc
  exact absurd hnumber (not_isNumberChar_of_outside (ha c hc) hne)

/-- No number goes on into a text that starts neither with a word nor with a point. -/
theorem parted_of_first (a : List Char) {b : List Char}
    (hb : ∀ c, b.head? = some c → isWordChar c = false) (hpoint : b.head? ≠ some '.') :
    Parted a b := by
  intro c d _ hd _
  have hne : d ≠ '.' := by
    rintro rfl
    exact hpoint hd
  exact not_isNumberChar_of_outside (hb d hd) hne

theorem ne_point_of_isBlank {c : Char} (h : isBlank c = true) : c ≠ '.' := by
  rintro rfl
  exact not_isNumberChar_of_isBlank h (Or.inr rfl)

theorem startsInWord_blanks_append {bs cs : List Char} (h : IsBlanks bs)
    (hcs : startsInWord cs = false) : startsInWord (bs ++ cs) = false := by
  cases bs with
  | nil => exact hcs
  | cons b bs => exact isWordChar_of_isBlank (h b List.mem_cons_self)

/-- Blanks in front of a text stay where they are. -/
theorem substitute_blanks {tokens : Replacements} (htokens : tokens.Words) {bs : List Char}
    (hbs : IsBlanks bs) (cs : List Char) :
    (substitute (bs ++ cs) tokens).text = bs ++ (substitute cs tokens).text := by
  induction bs with
  | nil => rfl
  | cons b bs ih =>
    have hb := hbs b List.mem_cons_self
    rw [List.cons_append, substitute_gap htokens (isWordChar_of_isBlank hb)
      (ne_point_of_isBlank hb), ih hbs.of_cons, List.cons_append]

/-- Blanks are left alone. -/
theorem substitute_of_blanks {tokens : Replacements} (htokens : tokens.Words) {bs : List Char}
    (hbs : IsBlanks bs) : (substitute bs tokens).text = bs := by
  have hnil : (substitute [] tokens).text = [] := by
    rw [substitute_text, replaceTokens_nil tokens htokens]
    rfl
  have hblanks := substitute_blanks htokens hbs []
  rwa [hnil, List.append_nil] at hblanks

theorem startsInWord_of_blanks {bs : List Char} (hbs : IsBlanks bs) :
    startsInWord bs = false := by
  have hblanks := startsInWord_blanks_append hbs (rfl : startsInWord [] = false)
  rwa [List.append_nil] at hblanks

/-- The blanks that are cut from the end of a text. -/
theorem exists_trimEnd (p : Char → Bool) (cs : List Char) :
    ∃ after, (∀ c ∈ after, p c = true) ∧ cs = trimEnd p cs ++ after := by
  induction cs with
  | nil => exact ⟨[], by simp, rfl⟩
  | cons c cs ih =>
    obtain ⟨after, hafter, hsplit⟩ := ih
    cases htrim : trimEnd p cs with
    | nil =>
      rw [htrim, List.nil_append] at hsplit
      by_cases hc : p c = true
      · refine ⟨c :: cs, ?_, by simp [trimEnd, htrim, hc]⟩
        rw [hsplit]
        intro d hd
        rcases List.mem_cons.mp hd with rfl | hd
        · exact hc
        · exact hafter d hd
      · exact ⟨after, hafter, by simp [trimEnd, htrim, hc, ← hsplit]⟩
    | cons d ds =>
      refine ⟨after, hafter, ?_⟩
      rw [htrim] at hsplit
      rw [trimEnd, htrim, List.cons_append, ← hsplit]

/-- The blanks that are cut from the two ends of a text. -/
theorem exists_trim (cs : List Char) :
    ∃ before after, IsBlanks before ∧ IsBlanks after ∧ cs = before ++ (trim cs ++ after) := by
  obtain ⟨after, hafter, hsplit⟩ := exists_trimEnd isBlank (cs.dropWhile isBlank)
  refine ⟨cs.takeWhile isBlank, after, ?_, hafter, ?_⟩
  · intro c hc
    exact List.all_eq_true.mp List.all_takeWhile c hc
  · rw [trim, ← hsplit, List.takeWhile_append_dropWhile]

/-- A text without blanks stays as it is. -/
theorem trim_eq_self {cs : List Char} (h : ∀ c ∈ cs, isBlank c = false) : trim cs = cs := by
  obtain ⟨before, after, hbefore, hafter, hsplit⟩ := exists_trim cs
  have hnone : ∀ bs : List Char, IsBlanks bs → (∀ c ∈ bs, c ∈ cs) → bs = [] := by
    intro bs hblanks hmem
    refine List.eq_nil_iff_forall_not_mem.mpr fun c hc => ?_
    exact absurd (hblanks c hc) (by simp [h c (hmem c hc)])
  have hmem : ∀ c, c ∈ cs ↔ c ∈ before ∨ c ∈ trim cs ∨ c ∈ after := by
    intro c
    conv_lhs => rw [hsplit, List.mem_append, List.mem_append]
  rw [hnone before hbefore fun c hc => (hmem c).mpr (.inl hc),
    hnone after hafter fun c hc => (hmem c).mpr (.inr (.inr hc)), List.append_nil] at hsplit
  exact hsplit.symm

theorem trim_digits (n : Nat) : trim (digits n) = digits n :=
  trim_eq_self fun c hc => isBlank_of_digit (isDigits_digits n c hc)

/-- Blanks around a text stay around it when its names are written as zero. -/
theorem exists_zeroed_trim (cs : List Char) :
    ∃ before after, IsBlanks before ∧ IsBlanks after
      ∧ zeroed cs = before ++ (zeroed (trim cs) ++ after) := by
  obtain ⟨before, after, hbefore, hafter, hsplit⟩ := exists_trim cs
  refine ⟨before, after, hbefore, hafter, ?_⟩
  calc zeroed cs = (substitute (before ++ (trim cs ++ after)) []).text := by
        rw [← hsplit, substitute_text_nil]
    _ = before ++ (zeroed (trim cs) ++ after) := by
        rw [substitute_blanks Replacements.words_nil hbefore,
          substitute_append Replacements.words_nil _ (startsInWord_of_blanks hafter),
          substitute_of_blanks Replacements.words_nil hafter, substitute_text_nil]

/-! ## Contributions -/

/-- The value of a text that has a tree. -/
theorem evaluateText_of_spells {cs : List Char} {symbols : List Symbol} {t : Tree} {depth : Nat}
    (hspells : Spells cs symbols) (hderives : Derives .sum t symbols) (hdepth : t.nesting ≤ depth) :
    evaluateText cs depth = t.evaluate.mapError .ofArithmetic := by
  rw [evaluateText, ofText_of_spells hspells hderives hdepth]
  rfl

/-- The value of a contribution on its own: that of a number as it is written, or that of a text
once its names are read as zero. A blank text counts as zero. -/
def Contribution.value (depth : Nat) : Contribution → Except EvaluationFault Decimal
  | .number n => evaluateText n.factor depth
  | .text s =>
    if isBlankText s then .ok (.ofInt 0) else evaluateText (substitute s.toList []).text depth

/-- A contribution that may stand for a token: a finite number, a blank text, or a text that is an
expression once its names are read as zero. -/
def Contribution.Stands : Contribution → Prop
  | .number n => n.isFinite = true
  | .text s => isBlankText s = true
      ∨ ∃ limit t, Tree.ofText (substitute s.toList []).text limit = .ok t

theorem Contribution.factor_of_blank {s : String} (h : isBlankText s = true) :
    (Contribution.text s).factor = ['0'] := by
  rw [Contribution.factor]
  exact if_pos (by simpa [isBlankText] using h)

theorem Contribution.factor_of_not_blank {s : String} (h : isBlankText s = false) :
    (Contribution.text s).factor = '(' :: (trim s.toList ++ [')']) := by
  rw [Contribution.factor]
  exact if_neg (by simpa [isBlankText] using h)

/-- **A contribution that may stand for a token is one factor**, whose tree has the value of the
contribution on its own. -/
theorem Contribution.exists_tree {c : Contribution} (h : c.Stands) :
    ∃ t symbols, Spells (zeroed c.factor) symbols ∧ Derives .factor t symbols
      ∧ ∀ depth, t.nesting ≤ depth → c.value depth = t.evaluate.mapError .ofArithmetic := by
  cases c with
  | number n =>
    have hfactor : IsNumberFactor n.factor := Number.factor_cases h
    obtain ⟨t, symbols, hspells, hderives⟩ := hfactor.exists_tree
    have hzeroed : zeroed (Contribution.number n).factor = n.factor := hfactor.zeroed_eq_self
    rw [hzeroed]
    exact ⟨t, symbols, hspells, hderives, fun depth hdepth =>
      evaluateText_of_spells hspells (.ofProduct (.ofFactor hderives)) hdepth⟩
  | text s =>
    cases hblank : isBlankText s with
    | true =>
      have hzero : IsNumber ['0'] := .whole (by decide) (by simp)
      have hzeroed : zeroed ['0'] = ['0'] := rfl
      rw [factor_of_blank hblank, hzeroed]
      refine ⟨_, _, .of_isNumber hzero, .number ['0'], fun depth _ => ?_⟩
      rw [Contribution.value, if_pos hblank]
      rfl
    | false =>
      obtain ⟨limit, t, ht⟩ := h.resolve_left (by simp [hblank])
      obtain ⟨symbols, hspells, hderives⟩ := spells_of_ofText ht
      have hzeroed : zeroed (Contribution.text s).factor
          = '(' :: (zeroed (trim s.toList) ++ [')']) := by
        rw [factor_of_not_blank hblank, zeroed_gap (by decide) (by decide),
          zeroed_append _ (by decide)]
        rfl
      -- the text without the blanks around it spells the same row
      have hinner : Spells (zeroed (trim s.toList)) symbols := by
        obtain ⟨before, after, hbefore, hafter, hsplit⟩ := exists_zeroed_trim s.toList
        rw [substitute_text_nil, hsplit] at hspells
        exact hspells.of_blanks hbefore hafter
      rw [hzeroed]
      refine ⟨.group t, _, hinner.parenthesized, .group hderives, fun depth hdepth => ?_⟩
      have hroom : t.nesting ≤ depth := Nat.le_of_succ_le hdepth
      rw [Contribution.value, if_neg (by simp [hblank]),
        evaluateText_of_spells hspells hderives hroom]
      rfl

end Tariff

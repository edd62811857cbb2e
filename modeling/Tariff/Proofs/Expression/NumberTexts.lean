import Tariff.Proofs.Expression.Acceptance
import Tariff.Proofs.Expression.Exactness
import Tariff.Proofs.LoneToken
import Tariff.Proofs.Numeral.Shortest
import Tariff.Proofs.WholeNumbers

/-!
# Texts of numbers in expressions

A number that is stored as a text is put into an expression as it is written. Where it is written
with its digits alone (`Number.isPositional`) the expression has its value, but for the digits that
a minus does not keep (`Number.readBack`). Where it is written with an exponent there is no
expression: the letter of the exponent is none of its characters (`Number.evaluate_text`).
-/

namespace Tariff

open Numeral Expression Text

/-! ## Texts in parentheses -/

/-- A text without blanks and names is written out between parentheses. -/
theorem Contribution.writtenOut_text {s : String} {cs : List Char} (hs : s.toList = cs)
    (hne : cs ≠ []) (hblank : ∀ c ∈ cs, isBlank c = false)
    (hnames : ∀ w, Piece.word w ∈ pieces ('(' :: (cs ++ [')'])) → isName w = false) :
    (Contribution.text s).writtenOut = '(' :: (cs ++ [')']) := by
  have htrim : trim s.toList = cs := by rw [hs, trim_eq_self hblank]
  have hsome : isBlankText s = false := by
    rw [isBlankText, htrim]
    exact List.isEmpty_eq_false_iff.mpr hne
  rw [writtenOut, factor_of_not_blank hsome, htrim, zeroed_eq_self hnames]

/-- A number with a sign in front of it, if there is one. -/
def signedText (neg : Bool) (ds : List Char) : List Char :=
  if neg then '-' :: ds else ds

theorem mem_signedText {neg : Bool} {ds : List Char} {c : Char} (h : c ∈ signedText neg ds) :
    c = '-' ∨ c ∈ ds := by
  cases neg with
  | false => exact .inr h
  | true => exact List.mem_cons.mp h

theorem signedText_append (neg : Bool) (ds cs : List Char) :
    signedText neg (ds ++ cs) = signedText neg ds ++ cs := by
  cases neg <;> rfl

theorem writtenOut_signedText {s : String} {neg : Bool} {ds : List Char} (hds : IsNumber ds)
    (hs : s.toList = signedText neg ds) :
    (Contribution.text s).writtenOut = '(' :: (signedText neg ds ++ [')']) := by
  have hsign : signedText neg ds ≠ [] := by
    cases neg with
    | false => exact hds.ne_nil
    | true => exact List.cons_ne_nil _ _
  refine Contribution.writtenOut_text hs hsign (fun c hc => ?_) fun w hw =>
    isName_of_mem_pieces ?_ hw
  · rcases mem_signedText hc with rfl | hc
    · decide
    · exact (hds.isNumberChar c hc).not_blank
  · intro c hc hword
    simp only [List.mem_cons, List.mem_append, List.not_mem_nil, or_false] at hc
    rcases hc with rfl | hc | rfl
    · exact absurd hword (by decide)
    · rcases mem_signedText hc with rfl | hc
      · exact absurd hword (by decide)
      · exact digit_of_mem_isNumber hds c hc hword
    · exact absurd hword (by decide)

/-- The value of a number between parentheses: what is read, or what a minus in front of it leaves.
-/
theorem evaluateText_signedText {ds : List Char} (hds : IsNumber ds) {d : Decimal}
    (hread : Decimal.read? ds = some d) (neg : Bool) {depth : ℕ} (hdepth : 2 ≤ depth) :
    evaluateText ('(' :: (signedText neg ds ++ [')'])) depth
      = if neg then d.neg?.elim (.error .overflow) .ok else .ok d := by
  have hliteral : Parser.literal ds = .literal d := literal_of_read? hread
  cases neg with
  | false =>
    have hnumber : Derives .factor (.literal d) [.number ds] := by
      rw [← hliteral]
      exact .number ds
    have hspells : Spells ds [.number ds] := .of_isNumber hds
    have hgroup : Derives .factor (.group (.literal d)) _ :=
      .group (.ofProduct (.ofFactor hnumber))
    show evaluateText ('(' :: (ds ++ [')'])) depth = _
    rw [evaluateText_of_spells hspells.parenthesized (.ofProduct (.ofFactor hgroup))
      (Nat.le_of_succ_le hdepth)]
    rfl
  | true => exact evaluateText_minus hds hliteral hdepth

/-- Of a text that is no expression the first character is reported that does not belong there. -/
theorem firstInvalid?_append {a b : List Char} {c : Char} (ha : ∀ d ∈ a, isExpressionChar d = true)
    (hc : isExpressionChar c = false) (place : ℕ) :
    Lexeme.firstInvalid? place (a ++ c :: b) = some (c, place + a.length) := by
  induction a generalizing place with
  | nil =>
    rw [List.nil_append, Lexeme.firstInvalid?, if_neg (by simp [hc])]
    rfl
  | cons d a ih =>
    rw [List.cons_append, Lexeme.firstInvalid?, if_pos (ha d List.mem_cons_self),
      ih (fun d hd => ha d (List.mem_cons_of_mem _ hd)), List.length_cons, Nat.add_right_comm,
      Nat.add_assoc]

theorem evaluateText_of_invalid {a b : List Char} {c : Char}
    (ha : ∀ d ∈ a, isExpressionChar d = true) (hc : isExpressionChar c = false) (depth : ℕ) :
    evaluateText (a ++ c :: b) depth = .error (.malformed (.invalidCharacter c a.length)) := by
  have hscan : Lexeme.scan (a ++ c :: b) = .error (.invalidCharacter c a.length) := by
    rw [Lexeme.scan, firstInvalid?_append ha hc, Nat.zero_add]
  rw [evaluateText, Tree.ofText, hscan]
  rfl

/-! ## Texts with an exponent -/

/-- What stands behind the letter of an exponent: a sign and digits. -/
def IsPower (cs : List Char) : Prop :=
  ∃ sign ds, cs = sign :: ds ∧ (sign = '-' ∨ sign = '+') ∧ IsDigits ds

namespace IsPower

variable {cs : List Char}

theorem not_blank (h : IsPower cs) {c : Char} (hc : c ∈ cs) : isBlank c = false := by
  obtain ⟨sign, ds, rfl, hsign, hds⟩ := h
  rcases List.mem_cons.mp hc with rfl | hc
  · rcases hsign with rfl | rfl <;> decide
  · exact isBlank_of_digit (hds c hc)

theorem digit_of_isWordChar (h : IsPower cs) {c : Char} (hc : c ∈ cs)
    (hword : isWordChar c = true) :
    isAsciiDigit c = true := by
  obtain ⟨sign, ds, rfl, hsign, hds⟩ := h
  rcases List.mem_cons.mp hc with rfl | hc
  · rcases hsign with rfl | rfl <;> exact absurd hword (by decide)
  · exact hds c hc

theorem startsInWord_append (h : IsPower cs) (b : List Char) : startsInWord (cs ++ b) = false := by
  obtain ⟨sign, ds, rfl, rfl | rfl, -⟩ := h <;> rfl

end IsPower

theorem endsInWord_opened {front : List Char} (h : endsInWord front = false) (neg : Bool) :
    endsInWord ('(' :: signedText neg front) = false := by
  have hopen : '(' :: signedText neg front = '(' :: signedText neg [] ++ front := by
    rw [List.cons_append, ← signedText_append, List.nil_append]
  rw [hopen]
  by_cases hnil : front = []
  · rw [hnil]
    cases neg <;> decide
  · rwa [endsInWord_append _ hnil]

/-- A text in which a letter stands behind a digit has no name there. -/
theorem isName_of_mem_exponent {a w b : List Char} (ha : endsInWord a = false)
    (hdigits : ∀ c, c ∈ a ∨ c ∈ b → isWordChar c = true → isAsciiDigit c = true) (hw : IsDigits w)
    (hne : w ≠ []) (hb : startsInWord b = false) {v : List Char}
    (hv : .word v ∈ pieces (a ++ (w ++ ['e'] ++ b))) : isName v = false := by
  have hdigit : ∀ c, isAsciiDigit c = true → isWordChar c = true := by
    intro c hc
    rw [isAsciiDigit_eq] at hc
    simp [isWordChar, Char.isAlphanum, hc]
  have hword : IsWord (w ++ ['e']) := by
    refine ⟨by simp, fun c hc => ?_⟩
    rcases List.mem_append.mp hc with hc | hc
    · exact hdigit c (hw c hc)
    · rw [List.mem_singleton.mp hc]
      decide
  rw [pieces_append_of_ends ha, pieces_word hword hb] at hv
  rcases List.mem_append.mp hv with hv | hv
  · exact isName_of_mem_pieces (fun c hc => hdigits c (.inl hc)) hv
  · rcases List.mem_cons.mp hv with heq | hv
    · -- a word that starts with a digit is no name
      obtain ⟨d, w, rfl⟩ := List.exists_cons_of_ne_nil hne
      cases heq
      have hd := hw d List.mem_cons_self
      rw [isAsciiDigit_eq] at hd
      simp [isName, hd]
    · exact isName_of_mem_pieces (fun c hc => hdigits c (.inr hc)) hv

/-- A text with an exponent is written out between parentheses: the letter continues a word of
digits. -/
theorem writtenOut_exponent {s : String} {neg : Bool} {front w behind : List Char}
    (hs : s.toList = signedText neg front ++ (w ++ 'e' :: behind))
    (hends : endsInWord front = false) (hfront : ∀ c ∈ front, IsNumberChar c) (hw : IsDigits w)
    (hne : w ≠ []) (hpower : IsPower behind) :
    (Contribution.text s).writtenOut
      = '(' :: signedText neg front ++ w ++ 'e' :: (behind ++ [')']) := by
  have hsplit : '(' :: (signedText neg front ++ (w ++ 'e' :: behind) ++ [')'])
      = '(' :: signedText neg front ++ (w ++ ['e'] ++ (behind ++ [')'])) := by simp
  have hwritten : (Contribution.text s).writtenOut
      = '(' :: (signedText neg front ++ (w ++ 'e' :: behind) ++ [')']) := by
    refine Contribution.writtenOut_text hs (by simp) (fun c hc => ?_) fun v hv => ?_
    · simp only [List.mem_append, List.mem_cons] at hc
      rcases hc with hc | hc | rfl | hc
      · rcases mem_signedText hc with rfl | hc
        · decide
        · exact (hfront c hc).not_blank
      · exact isBlank_of_digit (hw c hc)
      · decide
      · exact hpower.not_blank hc
    · rw [hsplit] at hv
      refine isName_of_mem_exponent (endsInWord_opened hends neg) (fun c hc hword => ?_) hw hne
        (hpower.startsInWord_append _) hv
      simp only [List.mem_cons, List.mem_append, List.not_mem_nil, or_false] at hc
      rcases hc with (rfl | hc) | hc | rfl
      · exact absurd hword (by decide)
      · rcases mem_signedText hc with rfl | hc
        · exact absurd hword (by decide)
        · rcases hfront c hc with hdigit | rfl
          · exact hdigit
          · exact absurd hword (by decide)
      · exact hpower.digit_of_isWordChar hc hword
      · exact absurd hword (by decide)
  rw [hwritten, hsplit]
  simp

/-! ## Texts of binary64 numbers -/

theorem ofDigits_append_zeros (ds : List Char) (k : ℕ) :
    ofDigits (ds ++ List.replicate k '0') = ofDigits ds * 10 ^ k := by
  induction k with
  | zero => rw [List.replicate_zero, List.append_nil, Nat.pow_zero, Nat.mul_one]
  | succ k ih =>
    have hlast : ofDigits (ds ++ List.replicate k '0' ++ ['0'])
        = 10 * ofDigits (ds ++ List.replicate k '0') + 0 := by
      rw [ofDigits_eq_foldl, ofDigits_eq_foldl, List.foldl_append]
      rfl
    rw [List.replicate_succ', ← List.append_assoc, hlast, ih, Nat.pow_succ, Nat.add_zero,
      Nat.mul_comm 10, Nat.mul_assoc]

namespace Binary64

/-- The decimal that a magnitude is written as. -/
def magnitude (mant : ℕ) (exp : ℤ) : Decimal :=
  if mant = 0 then ⟨false, 0, 0⟩ else ⟨false, (shortest mant exp).1, (shortest mant exp).2⟩

/-- Whether a magnitude is written without an exponent. -/
def IsPositional (mant : ℕ) (exp : ℤ) : Prop :=
  mant = 0 ∨ -4 ≤ (magnitude mant exp).leadingExponent ∧ (magnitude mant exp).leadingExponent < 16

instance (mant : ℕ) (exp : ℤ) : Decidable (IsPositional mant exp) :=
  inferInstanceAs (Decidable (_ ∨ _))

variable {mant : ℕ} {exp : ℤ}

theorem decimal?_finite (neg : Bool) (mant : ℕ) (exp : ℤ) :
    (finite neg mant exp).decimal? = some { magnitude mant exp with neg } := by
  rw [decimal?, magnitude]
  split <;> rfl

/-- A decimal with a point behind its last digit, or among or in front of its digits. -/
theorem read?_pointed_text (c : ℕ) (k : ℤ) :
    ∃ d, Decimal.read? (Decimal.placePoint (digits c) (k + (digits c).length)
        ++ (if 0 ≤ k then ['.', '0'] else [])) = some d
      ∧ IsNumber (Decimal.placePoint (digits c) (k + (digits c).length)
        ++ (if 0 ≤ k then ['.', '0'] else []))
      ∧ d.toRat = Decimal.toRat ⟨false, c, k⟩ := by
  have hds : IsDigits (digits c) := isDigits_digits c
  by_cases hk : 0 ≤ k
  · -- zeros up to the point, and one behind it
    have hzero : IsDigits ['0'] := by decide
    have hdigits : IsDigits (digits c ++ List.replicate k.toNat '0') :=
      hds.append (isDigits_zeros _)
    have hlength : 0 < (digits c).length := List.length_pos_iff.mpr (digits_ne_nil c)
    have hpos : ¬ k + (digits c).length ≤ 0 := by omega
    have hcount : (k + (digits c).length).toNat - (digits c).length = k.toNat := by omega
    have hwhole : Decimal.placePoint (digits c) (k + (digits c).length)
        = digits c ++ List.replicate k.toNat '0' := by
      rw [Decimal.placePoint, if_neg hpos]
      show (if (digits c).length ≤ (k + (digits c).length).toNat then _ else _) = _
      rw [if_pos (by omega), hcount]
    have hvalue : ofDigits (digits c ++ List.replicate k.toNat '0' ++ ['0'])
        = c * 10 ^ (k.toNat + 1) := by
      rw [List.append_assoc, ← List.replicate_succ', ofDigits_append_zeros, ofDigits_digits]
    rw [hwhole, if_pos hk]
    refine ⟨_, read?_pointed hdigits hzero (.inr (List.cons_ne_nil _ _)),
      .pointed hdigits hzero (.inr (List.cons_ne_nil _ _)), ?_⟩
    have hpower : ((10 : ℚ) ^ (k.toNat + 1)) * 10 ^ (-1 : ℤ) = 10 ^ k := by
      rw [← zpow_natCast, ← zpow_add₀ (by norm_num)]
      congr 1
      omega
    rw [hvalue]
    simp only [Decimal.toRat, Bool.false_eq_true, if_false, one_mul, List.length_singleton]
    push_cast
    rw [mul_assoc, hpower]
  · -- the point stands among the digits, or zeros in front of them
    obtain ⟨j, hj, rfl⟩ : ∃ j : ℕ, 0 < j ∧ k = -j := ⟨(-k).toNat, by omega, by omega⟩
    have hread := read?_placePoint hds hj
    rw [ofDigits_digits] at hread
    rw [if_neg hk, List.append_nil]
    exact ⟨_, hread, isNumber_placePoint hds (digits_ne_nil c) _, rfl⟩

/-- **Without an exponent a magnitude is a number**, with the value of its shortest decimal. -/
theorem read?_magnitudeText (h : IsPositional mant exp) :
    ∃ d, Decimal.read? (magnitudeText mant exp) = some d ∧ IsNumber (magnitudeText mant exp)
      ∧ d.toRat = (magnitude mant exp).toRat := by
  by_cases hzero : mant = 0
  · have hdigit : IsDigits ['0'] := by decide
    have hpoint : IsNumber (['0'] ++ '.' :: ['0']) := .pointed hdigit hdigit (.inl (by decide))
    rw [magnitudeText, magnitude, if_pos hzero, if_pos hzero]
    exact ⟨⟨false, 0, -1⟩, by decide, hpoint, by simp [Decimal.toRat]⟩
  · have hlead := h.resolve_left hzero
    rw [magnitude, if_neg hzero] at hlead ⊢
    rw [magnitudeText, if_neg hzero]
    generalize shortest mant exp = s at hlead ⊢
    simp only [Decimal.leadingExponent, digitCount_eq_length] at hlead
    have hplaces : -4 < s.2 + (digits s.1).length ∧ s.2 + (digits s.1).length ≤ 16 := by omega
    dsimp only
    rw [if_pos hplaces]
    exact read?_pointed_text s.1 s.2

theorem isNarrow_magnitude (hmant : mant < 2 ^ 53) (h : IsPositional mant exp) (neg : Bool) :
    Decimal.IsNarrow { magnitude mant exp with neg } := by
  by_cases hzero : mant = 0
  · rw [magnitude, if_pos hzero]
    cases neg <;> decide
  · have hlead := h.resolve_left hzero
    have hcoeff := shortest_le hmant exp
    rw [magnitude, if_neg hzero] at hlead ⊢
    generalize shortest mant exp = s at hlead hcoeff ⊢
    -- so few digits around the point are far from both limits
    have hcount : digitCount s.1 ≤ 18 :=
      (digitCount_le_iff (by decide)).mpr (hcoeff.trans_lt (by decide))
    have hfew : s.1 < 10 ^ Decimal.precision := hcoeff.trans_lt (by decide)
    simp only [Decimal.leadingExponent] at hlead
    refine ⟨hfew, ?_, ?_⟩
    · have htiny : Decimal.tinyExponent = -1000026 := rfl
      rw [htiny]
      show -1000026 ≤ s.2
      omega
    · have hlarge : Decimal.maxExponent = 999999 := rfl
      rw [hlarge]
      show s.2 + digitCount s.1 - 1 ≤ 999999
      omega

/-- A first digit, and the others behind a point if there are any. -/
theorem placePoint_one {ds : List Char} (hds : IsDigits ds) (hne : ds ≠ []) :
    ∃ front w, Decimal.placePoint ds 1 = front ++ w ∧ endsInWord front = false
      ∧ (∀ c ∈ front, IsNumberChar c) ∧ IsDigits w ∧ w ≠ [] := by
  obtain ⟨d, rest, rfl⟩ := List.exists_cons_of_ne_nil hne
  cases rest with
  | nil => exact ⟨[], [d], rfl, rfl, by simp, hds, hne⟩
  | cons r rest =>
    refine ⟨[d, '.'], r :: rest, rfl, rfl, ?_, fun c hc => hds c (List.mem_cons_of_mem _ hc),
      List.cons_ne_nil _ _⟩
    intro c hc
    rcases List.mem_cons.mp hc with rfl | hc
    · exact .inl (hds c List.mem_cons_self)
    · exact .inr (List.mem_singleton.mp hc)

/-- **With an exponent a magnitude is no number**: there is a letter between its digits. -/
theorem magnitudeText_exponent (h : ¬ IsPositional mant exp) :
    ∃ front w behind, magnitudeText mant exp = front ++ (w ++ 'e' :: behind)
      ∧ endsInWord front = false ∧ (∀ c ∈ front, IsNumberChar c) ∧ IsDigits w ∧ w ≠ []
      ∧ IsPower behind := by
  obtain ⟨hzero, hlead⟩ := not_or.mp h
  rw [magnitude, if_neg hzero] at hlead
  rw [magnitudeText, if_neg hzero]
  generalize shortest mant exp = s at hlead ⊢
  simp only [Decimal.leadingExponent, digitCount_eq_length] at hlead
  have hplaces : ¬ (-4 < s.2 + (digits s.1).length ∧ s.2 + (digits s.1).length ≤ 16) := by omega
  obtain ⟨front, w, hpoint, hends, hfront, hw, hne⟩ :=
    placePoint_one (isDigits_digits s.1) (digits_ne_nil s.1)
  dsimp only
  rw [if_neg hplaces, hpoint]
  generalize s.2 + (digits s.1).length - 1 = e
  have hpower : IsPower ((if e < 0 then '-' else '+') :: paddedDigits 2 e.natAbs) := by
    refine ⟨_, _, rfl, ?_, (isDigits_zeros _).append (isDigits_digits _)⟩
    split
    · exact .inl rfl
    · exact .inr rfl
  refine ⟨front, w, _, ?_, hends, hfront, hw, hne, hpower⟩
  simp only [List.append_assoc, List.cons_append, List.nil_append]

end Binary64

/-! ## Texts of numbers -/

namespace Number

/-- A number that a document can hold: a whole number whose digits it may have, or a finite number
of 53 bits. -/
def IsStored : Number → Prop
  | whole n => digitCount n.natAbs ≤ Json.maxIntegerDigits
  | real (.finite _ mant _) => mant < 2 ^ 53
  | real _ => False

/-- Whether a number is written without an exponent. -/
def IsPositional : Number → Prop
  | whole _ => True
  | real (.finite _ mant exp) => Binary64.IsPositional mant exp
  | real _ => False

/-- The decimal value of a finite number: that of its shortest digits, if it is a binary64 number.
-/
def decimalValue : Number → ℚ
  | whole n => n
  | real x => (x.decimal?.map Decimal.toRat).getD 0

/-- The value that an expression has where the text of a number stands: a minus keeps 28 digits. -/
def readBack : Number → ℚ
  | whole n => (if n < 0 then -(keptDigits n.natAbs : ℤ) else n : ℤ)
  | real x => (real x).decimalValue

theorem evaluate_whole_text {n : ℤ} (hn : (whole n).IsStored) {depth : ℕ} (hdepth : 2 ≤ depth) :
    ∃ d, evaluateText (Contribution.text (whole n).text).writtenOut depth = .ok d
      ∧ d.toRat = (whole n).readBack := by
  have htext : (whole n).text.toList = signedText (decide (n < 0)) (digits n.natAbs) := by
    show (integerText n).toList = _
    unfold integerText signedText
    split <;> simp_all
  have hread : Decimal.read? (digits n.natAbs) = some (.ofNat n.natAbs) := by
    rw [read?_whole (isDigits_digits _) (digits_ne_nil _), ofDigits_digits]
    rfl
  rw [writtenOut_signedText (isNumber_digits _) htext,
    evaluateText_signedText (isNumber_digits _) hread _ hdepth]
  by_cases hneg : n < 0
  · obtain ⟨e, he, -, hvalue⟩ := Decimal.neg?_whole hn
    rw [if_pos (decide_eq_true hneg), he]
    exact ⟨e, rfl, by rw [hvalue, readBack, if_pos hneg]⟩
  · rw [if_neg (by simpa using hneg)]
    refine ⟨_, rfl, ?_⟩
    rw [Decimal.toRat_ofNat, Int.natAbs_of_nonneg (Int.not_lt.mp hneg), readBack, if_neg hneg]

variable {neg : Bool} {mant : ℕ} {exp : ℤ}

theorem text_finite :
    (real (.finite neg mant exp)).text.toList =
      signedText neg (Binary64.magnitudeText mant exp) := by
  show (String.ofList _).toList = _
  rw [String.toList_ofList]
  rfl

theorem decimalValue_finite :
    (real (.finite neg mant exp)).decimalValue
      = Decimal.toRat { Binary64.magnitude mant exp with neg } := by
  rw [decimalValue, Binary64.decimal?_finite]
  rfl

theorem evaluate_positional_text (hmant : mant < 2 ^ 53) (h : Binary64.IsPositional mant exp)
    {depth : ℕ} (hdepth : 2 ≤ depth) :
    ∃ d, evaluateText (Contribution.text (real (.finite neg mant exp)).text).writtenOut depth
        = .ok d
      ∧ d.toRat = (real (.finite neg mant exp)).decimalValue := by
  obtain ⟨d, hread, hnumber, hvalue⟩ := Binary64.read?_magnitudeText h
  have hplain : (Binary64.magnitude mant exp).neg = false := by
    rw [Binary64.magnitude]
    split <;> rfl
  rw [writtenOut_signedText hnumber text_finite, evaluateText_signedText hnumber hread _ hdepth,
    decimalValue_finite]
  cases neg with
  | false => exact ⟨d, rfl, by rw [hvalue, ← hplain]⟩
  | true =>
    -- so few digits are all kept behind a minus
    have hopposite : -d.toRat = Decimal.toRat { Binary64.magnitude mant exp with neg := true } := by
      rw [hvalue, ← Decimal.toRat_opposite, Decimal.opposite, hplain]
      rfl
    have hkept : Decimal.IsKept (-d.toRat) :=
      ⟨_, Binary64.isNarrow_magnitude hmant h true, hopposite.symm⟩
    obtain ⟨e, he, hnegated⟩ := neg?_of_isKept hkept
    exact ⟨e, by rw [if_pos rfl, he]; rfl, hnegated.trans hopposite⟩

theorem evaluate_exponent_text (h : ¬ Binary64.IsPositional mant exp) (depth : ℕ) :
    ∃ place, evaluateText (Contribution.text (real (.finite neg mant exp)).text).writtenOut depth
      = .error (.malformed (.invalidCharacter 'e' place)) := by
  obtain ⟨front, w, behind, hmagnitude, hends, hfront, hw, hne, hpower⟩ :=
    Binary64.magnitudeText_exponent h
  have htext : (real (.finite neg mant exp)).text.toList
      = signedText neg front ++ (w ++ 'e' :: behind) := by
    rw [text_finite, hmagnitude, signedText_append]
  have hvalid : ∀ c ∈ '(' :: signedText neg front ++ w, isExpressionChar c = true := by
    intro c hc
    simp only [List.mem_cons, List.mem_append] at hc
    rcases hc with (rfl | hc) | hc
    · decide
    · rcases mem_signedText hc with rfl | hc
      · decide
      · exact (hfront c hc).isExpressionChar
    · exact IsNumberChar.isExpressionChar (.inl (hw c hc))
  rw [writtenOut_exponent htext hends hfront hw hne hpower]
  exact ⟨_, evaluateText_of_invalid hvalid (by decide) depth⟩

/-- **The text of a number is read back where it has no exponent**, and is no expression where it
has one. -/
theorem evaluate_text {n : Number} (hn : n.IsStored) {depth : ℕ} (hdepth : 2 ≤ depth) :
    (n.IsPositional → ∃ d, evaluateText (Contribution.text n.text).writtenOut depth = .ok d
        ∧ d.toRat = n.readBack)
      ∧ (¬ n.IsPositional → ∃ place, evaluateText (Contribution.text n.text).writtenOut depth
        = .error (.malformed (.invalidCharacter 'e' place))) := by
  cases n with
  | whole n => exact ⟨fun _ => evaluate_whole_text hn hdepth, fun h => absurd trivial h⟩
  | real x =>
    cases x with
    | finite neg mant exp =>
      exact ⟨fun h => evaluate_positional_text hn h hdepth, fun h => evaluate_exponent_text h depth⟩
    | infinite neg => exact hn.elim
    | nan => exact hn.elim

/-- The values that an expression may have where the text of a number stands. -/
theorem exists_value_text_iff {n : Number} (hn : n.IsStored) {depth : ℕ} (hdepth : 2 ≤ depth)
    (q : ℚ) :
    (∃ d, evaluateText (Contribution.text n.text).writtenOut depth = .ok d ∧ d.toRat = q)
      ↔ n.IsPositional ∧ n.readBack = q := by
  obtain ⟨hpositional, hexponent⟩ := evaluate_text hn hdepth
  by_cases h : n.IsPositional
  · obtain ⟨d, hd, hvalue⟩ := hpositional h
    rw [hd]
    constructor
    · rintro ⟨e, he, hq⟩
      cases he
      exact ⟨h, hvalue.symm.trans hq⟩
    · rintro ⟨-, hq⟩
      exact ⟨d, rfl, hvalue.trans hq⟩
  · obtain ⟨place, hfault⟩ := hexponent h
    rw [hfault]
    refine iff_of_false ?_ fun hboth => h hboth.1
    rintro ⟨d, hd, -⟩
    cases hd

end Number

end Tariff

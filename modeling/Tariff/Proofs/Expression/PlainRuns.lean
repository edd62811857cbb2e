import Tariff.Proofs.Expression.Binding
import Tariff.Proofs.Expression.WholeWords

/-!
# Stretches that no token takes

`segments` cuts an expression into tokens and plain characters. `StandsPlain` is said of a stretch
of plain characters beside which there is no token, no word and no point: whatever is written for
the tokens, what stands there is neither part of a word nor part of a number with its surroundings.

* `StandsPlain.number`, `StandsPlain.name` — a number that stands so is one operand of the
  expression, and a name that stands so is listed as unknown and read as zero, again as one operand;
* `gathered_segmentsFrom` — new tokens that are names take the place of whole plain names, and
  change nothing else in the cut, whatever the other tokens are;
* `StandsPlain.extend` — so a number that stands plain does so with such tokens, too.
-/

namespace Tariff.Expression

open Tariff.Expression.Parser

/-! ## Plain stretches -/

/-- A plain character that belongs neither to words nor to numbers. -/
def Segment.Bounds (s : Segment) : Prop :=
  ∃ c, s = .plain c ∧ isWordChar c = false ∧ c ≠ '.'

theorem Segment.not_bounds {c : Char} (hc : isWordChar c = true) : ¬ (Segment.plain c).Bounds := by
  rintro ⟨d, hd, hgap, -⟩
  obtain rfl := Segment.plain.inj hd
  rw [hc] at hgap
  cases hgap

/-- What is written in a segment. -/
def Segment.chars : Segment → List Char
  | token name => name
  | plain c => [c]

/-- A stretch of an expression that the tokens leave plain, between `front` and `back`. No token
stands beside it, no word goes on from it, and no point is next to it. -/
structure StandsPlain (names : List (List Char)) (front : List Segment) (run : List Char)
    (back : List Segment) (cs : List Char) : Prop where
  cut : segments names cs = front ++ (run.map .plain ++ back)
  left : ∀ s, front.getLast? = some s → s.Bounds
  right : ∀ s, back.head? = some s → s.Bounds

section Rendered

variable {tokens : Replacements} {front back : List Segment}

theorem replaceTokens_of_standsPlain {run cs : List Char}
    (h : StandsPlain (tokens.map (·.1)) front run back cs) :
    replaceTokens tokens cs = rendered tokens front ++ (run ++ rendered tokens back) := by
  rw [replaceTokens, h.cut, List.flatMap_append, List.flatMap_append, List.flatMap_map]
  show _ ++ (run.flatMap (fun c => [c]) ++ _) = _
  rw [List.flatMap_singleton']
  rfl

/-- What is written for a front that ends at a bound ends there, too. -/
theorem rendered_cases (tokens : Replacements) (h : ∀ s, front.getLast? = some s → s.Bounds) :
    rendered tokens front = []
      ∨ ∃ a c, rendered tokens front = a ++ [c] ∧ isWordChar c = false ∧ c ≠ '.' := by
  rcases List.eq_nil_or_concat front with rfl | ⟨init, s, rfl⟩
  · exact Or.inl rfl
  · rw [List.concat_eq_append] at h ⊢
    obtain ⟨c, rfl, hc, hpoint⟩ := h s (by simp)
    refine Or.inr ⟨rendered tokens init, c, ?_, hc, hpoint⟩
    rw [rendered, List.flatMap_append]
    rfl

theorem getLast?_rendered (tokens : Replacements) (h : ∀ s, front.getLast? = some s → s.Bounds) :
    endsInWord (rendered tokens front) = false ∧ (rendered tokens front).getLast? ≠ some '.' := by
  rcases rendered_cases tokens h with hnil | ⟨a, c, hlast, hc, hpoint⟩
  · rw [hnil]
    exact ⟨rfl, by simp⟩
  · rw [hlast, List.getLast?_concat, endsInWord_append a (List.cons_ne_nil c [])]
    exact ⟨hc, fun heq => hpoint (Option.some.inj heq)⟩

theorem head?_rendered (tokens : Replacements) (h : ∀ s, back.head? = some s → s.Bounds) :
    startsInWord (rendered tokens back) = false ∧ (rendered tokens back).head? ≠ some '.' := by
  cases back with
  | nil => exact ⟨rfl, by simp [rendered]⟩
  | cons s back =>
    obtain ⟨c, rfl, hc, hpoint⟩ := h s rfl
    exact ⟨hc, fun heq => hpoint (Option.some.inj heq)⟩

end Rendered

/-! ## Tokens that are words -/

/-- The cut of a piece of a text where every token is a word. -/
def Piece.cut (names : List (List Char)) : Piece → List Segment
  | word w => if w ∈ names then [.token w] else w.map .plain
  | gap c => [.plain c]

section Words

variable {names : List (List Char)} {before run after : List Char}

theorem segments_eq_pieces (hnames : ∀ t ∈ names, IsWord t) (cs : List Char) :
    segments names cs = (pieces cs).flatMap (Piece.cut names) := by
  unfold segments
  induction cs using wordRuns with
  | hnil =>
    rw [segmentsFrom, longestAt?_eq_none fun t ht => standsAt_nil (hnames t ht)]
    rfl
  | hgap c cs hc ih =>
    rw [segmentsFrom_gap (fun t ht => (hnames t ht).startsInWord) false hc, pieces_gap hc,
      List.flatMap_cons, ih]
    rfl
  | hword w cs hw hcs ih =>
    rw [segmentsFrom_word hnames hw hcs, pieces_word hw hcs, List.flatMap_cons, ih]
    rfl

theorem Piece.chars_cut (p : Piece) : (p.cut names).flatMap Segment.chars = p.text := by
  cases p with
  | gap c => rfl
  | word w =>
    rw [Piece.cut]
    split
    · exact List.flatMap_singleton _ _
    · rw [List.flatMap_map]
      exact List.flatMap_singleton' w

theorem chars_cut_pieces (cs : List Char) :
    ((pieces cs).flatMap (Piece.cut names)).flatMap Segment.chars = cs := by
  rw [List.flatMap_assoc]
  simp only [Piece.chars_cut]
  exact (isCut_pieces cs).text

/-- What holds no token is left plain. -/
theorem cut_pieces_of_not_mem (hrun : ∀ t ∈ names, .word t ∉ pieces run) :
    (pieces run).flatMap (Piece.cut names) = run.map .plain := by
  have hplain : ∀ p ∈ pieces run, p.cut names = p.text.map .plain := by
    intro p hp
    cases p with
    | gap c => rfl
    | word w => exact if_neg fun hw => hrun w hw hp
  rw [List.flatMap_congr hplain, ← List.map_flatMap, (isCut_pieces run).text]

/-- **Where every token is a word, what stands plain can be read off the text**: no token is in it,
and neither a word nor a point is beside it. -/
theorem standsPlain_of_words (hnames : ∀ t ∈ names, IsWord t)
    (hrun : ∀ t ∈ names, .word t ∉ pieces run)
    (hbefore : endsInWord before = false) (hpoint : before.getLast? ≠ some '.')
    (hafter : startsInWord after = false) (hpoint' : after.head? ≠ some '.') :
    ∃ front back, StandsPlain names front run back (before ++ (run ++ after))
      ∧ front.flatMap Segment.chars = before ∧ back.flatMap Segment.chars = after := by
  refine ⟨(pieces before).flatMap (Piece.cut names), (pieces after).flatMap (Piece.cut names),
    ⟨?_, ?_, ?_⟩, chars_cut_pieces before, chars_cut_pieces after⟩
  · rw [segments_eq_pieces hnames, pieces_append_of_ends hbefore, pieces_append run hafter,
      List.flatMap_append, List.flatMap_append, cut_pieces_of_not_mem hrun]
  · intro s hs
    rcases exists_last_of_ends hbefore with rfl | ⟨init, c, rfl, hc⟩
    · cases hs
    · have hgap : startsInWord [c] = false := hc
      rw [pieces_append init hgap, pieces_gap hc, List.flatMap_append] at hs
      have hlast : s = .plain c := by simpa [Piece.cut, pieces] using hs.symm
      exact ⟨c, hlast, hc, fun heq => hpoint (by rw [heq, List.getLast?_concat])⟩
  · intro s hs
    cases after with
    | nil => cases hs
    | cons c after =>
      rw [pieces_gap hafter] at hs
      obtain rfl : Segment.plain c = s := Option.some.inj hs
      exact ⟨c, rfl, hafter, fun heq => hpoint' (by rw [heq, List.head?_cons])⟩

end Words

/-! ## Operands -/

/-- A number is written in a text between `left` and `right`, and is one operand of its tree. -/
structure IsOperand (ds left right text : List Char) : Prop where
  written : text = left ++ (ds ++ right)
  operand : ∀ limit t, Tree.ofText text limit = .ok t →
    ∃ c : Context, t = c.plug (literal ds) ∧ c.Fits left right

/-- A number that stands between texts without a word or a point at it is one operand. -/
theorem isOperand_of_bounds {ds a b : List Char} (hds : IsNumber ds)
    (ha : endsInWord a = false) (hapoint : a.getLast? ≠ some '.')
    (hb : startsInWord b = false) (hbpoint : b.head? ≠ some '.') :
    IsOperand ds (zeroed a) (zeroed b) (zeroed a ++ (ds ++ zeroed b)) := by
  have hlast := getLast?_zeroed ha
  have hhead := head?_zeroed hb
  rw [endsInWord_eq_false_iff, ← hlast] at ha
  rw [startsInWord_eq_false_iff, ← hhead] at hb
  refine ⟨rfl, fun limit t htree => ?_⟩
  exact literal_of_parted hds (parted_of_last ha (by rwa [hlast]) _)
    (parted_of_first _ hb (by rwa [hhead])) htree

section Text

variable {tokens : Replacements} {front back : List Segment} {cs : List Char}

/-- **A number that stands plain is one operand.** -/
theorem StandsPlain.number {ds : List Char} (hds : IsNumber ds)
    (h : StandsPlain (tokens.map (·.1)) front ds back cs) :
    IsOperand ds (zeroed (rendered tokens front)) (zeroed (rendered tokens back))
      (substitute cs tokens).text := by
  obtain ⟨ha, hapoint⟩ := getLast?_rendered tokens h.left
  obtain ⟨hb, hbpoint⟩ := head?_rendered tokens h.right
  have hnoname : ∀ w, Piece.word w ∈ pieces ds → isName w = false := fun _ hw =>
    isName_of_mem_pieces (digit_of_mem_isNumber hds) hw
  rw [substitute_text, replaceTokens_of_standsPlain h, zeroed_around ha hnoname hb]
  exact isOperand_of_bounds hds ha hapoint hb hbpoint

/-- A name that no point stands right before is read as zero, and what is around it is left alone.
-/
theorem zeroed_around_name {a w b : List Char} (ha : endsInWord a = false)
    (hapoint : a.getLast? ≠ some '.') (hw : IsWord w) (hname : isName w = true)
    (hb : startsInWord b = false) : zeroed (a ++ (w ++ b)) = zeroed a ++ (['0'] ++ zeroed b) := by
  rcases exists_last_of_ends ha with rfl | ⟨init, c, rfl, hc⟩
  · show zeroed (w ++ b) = _
    rw [zeroed_append w hb, zeroed_name hw hname]
    rfl
  · have hpoint : c ≠ '.' := by
      rintro rfl
      exact hapoint (by simp)
    have hgap : ∀ rest, startsInWord (c :: rest) = false := fun _ => hc
    have hsplit : ∀ rest, zeroed (init ++ [c] ++ rest) = zeroed init ++ c :: zeroed rest := by
      intro rest
      rw [List.append_assoc, List.singleton_append, zeroed_append init (hgap rest),
        zeroed_gap hc hpoint]
    have hnil : zeroed (init ++ [c]) = zeroed init ++ [c] := by
      rw [← List.append_nil (init ++ [c]), hsplit]
      rfl
    rw [hsplit, hnil, zeroed_append w hb, zeroed_name hw hname, List.append_assoc]
    rfl

/-- Such a name is found. -/
theorem mem_namesIn_around {a w b : List Char} (ha : endsInWord a = false)
    (hapoint : a.getLast? ≠ some '.') (hw : IsWord w) (hname : isName w = true)
    (hb : startsInWord b = false) : w ∈ namesIn false (pieces (a ++ (w ++ b))) := by
  have hhere : ∀ qs, w ∈ namesIn false (.word w :: qs) := by
    intro qs
    rw [namesIn, if_pos (by simp [hname])]
    exact List.mem_cons_self
  have hbehind : ∀ (p : Piece) qs afterPoint, w ∈ namesIn (p == .gap '.') qs →
      w ∈ namesIn afterPoint (p :: qs) := by
    intro p qs afterPoint hmem
    cases p with
    | gap c =>
      have hsame : (Piece.gap c == .gap '.') = (c == '.') := gap_beq_point c
      rwa [namesIn, ← hsame]
    | word v =>
      rw [namesIn]
      split
      · exact List.mem_cons_of_mem _ hmem
      · exact hmem
  rw [pieces_append_of_ends ha, pieces_word hw hb]
  rcases exists_last_of_ends ha with rfl | ⟨init, c, rfl, hc⟩
  · exact hhere _
  · have hpoint : (Piece.gap c == .gap '.') = false := by
      have hne : c ≠ '.' := by
        rintro rfl
        exact hapoint (by simp)
      simpa using hne
    have hgap : startsInWord [c] = false := hc
    rw [pieces_append init hgap, pieces_gap hc, List.append_assoc]
    -- what is found before the name does not matter
    generalize pieces init = ps, false = afterPoint
    induction ps generalizing afterPoint with
    | nil =>
      refine hbehind _ _ _ ?_
      rw [hpoint]
      exact hhere _
    | cons p ps ih => exact hbehind p _ _ (ih _)

/-- **A name that stands plain is unknown, and is read as zero**, as one operand. -/
theorem StandsPlain.name {w : List Char} (hw : IsWord w) (hname : isName w = true)
    (h : StandsPlain (tokens.map (·.1)) front w back cs) :
    String.ofList w ∈ (substitute cs tokens).unknown
      ∧ IsOperand ['0'] (zeroed (rendered tokens front)) (zeroed (rendered tokens back))
        (substitute cs tokens).text := by
  obtain ⟨ha, hapoint⟩ := getLast?_rendered tokens h.left
  obtain ⟨hb, hbpoint⟩ := head?_rendered tokens h.right
  rw [substitute, replaceTokens_of_standsPlain h]
  constructor
  · refine List.mem_map_of_mem (List.mem_eraseDups.mpr ?_)
    exact mem_namesIn_around ha hapoint hw hname hb
  · show IsOperand _ _ _ (zeroed _)
    rw [zeroed_around_name ha hapoint hw hname hb]
    exact isOperand_of_bounds isNumber_zero ha hapoint hb hbpoint

end Text

/-! ## More tokens -/

/-- One cut of an expression is another one with whole plain names of it gathered into tokens. -/
inductive Gathered : List Segment → List Segment → Prop where
  | nil : Gathered [] []
  | same (s : Segment) {segs others : List Segment} (rest : Gathered segs others) :
    Gathered (s :: segs) (s :: others)
  | name {w : List Char} (hw : IsWord w) (hname : isName w = true) {segs others : List Segment}
    (rest : Gathered segs others) : Gathered (w.map .plain ++ segs) (.token w :: others)

/-- There are more tokens, and those that are new are names. -/
structure Extends (names others : List (List Char)) : Prop where
  kept : ∀ t ∈ names, t ∈ others
  added : ∀ t ∈ others, t ∈ names ∨ IsWord t ∧ isName t = true

/-- Where a word stands as a whole, a token that is found there is at least as long. -/
theorem length_le_of_standsAt {t w rest : List Char} (hw : IsWord w)
    (ht : standsAt t (w ++ rest) = true) : w.length ≤ t.length := by
  by_contra hshort
  obtain ⟨tail, htext, hend⟩ := standsAt_iff.mp ht
  have hlead : t <+: w := List.prefix_of_prefix_length_le (prefix_of_standsAt ht)
    (List.prefix_append w rest) (by omega)
  obtain ⟨more, rfl⟩ := hlead
  rw [List.append_assoc] at htext
  obtain rfl := List.append_cancel_left htext
  cases more with
  | nil => simp at hshort
  | cons c more =>
    have hc : isWordChar c = true := hw.2 c (by simp)
    rw [show isWordChar c = false from hend] at hc
    cases hc

/-- At every place the same token is found as before, or a new one where none was. -/
theorem Extends.longestAt?_cases {names others : List (List Char)} (h : Extends names others)
    (cs : List Char) :
    longestAt? others cs = longestAt? names cs
      ∨ longestAt? names cs = none ∧ ∃ w rest, longestAt? others cs = some w ∧ cs = w ++ rest
        ∧ startsInWord rest = false ∧ IsWord w ∧ isName w = true := by
  have hlongest := isLongest_longestAt? others cs
  cases hfound : longestAt? others cs with
  | none =>
    rw [hfound] at hlongest
    exact Or.inl (longestAt?_eq_none fun t ht => hlongest t (h.kept t ht)).symm
  | some w =>
    rw [hfound] at hlongest
    obtain ⟨hmem, hstands, hmost⟩ := hlongest
    by_cases hold : w ∈ names
    · have hsame : IsLongest names cs (some w) :=
        ⟨hold, hstands, fun t ht => hmost t (h.kept t ht)⟩
      exact Or.inl (hsame.unique (isLongest_longestAt? names cs))
    · obtain ⟨hw, hname⟩ := (h.added w hmem).resolve_left hold
      obtain ⟨rest, rfl, hrest⟩ := standsAt_iff.mp hstands
      refine Or.inr ⟨longestAt?_eq_none fun t ht => ?_, w, rest, rfl, rfl, hrest, hw, hname⟩
      -- a token of before that stood there would be as long as the word, and so the word itself
      rw [← Bool.not_eq_true]
      intro ht'
      have hlength := Nat.le_antisymm (hmost t (h.kept t ht) ht') (length_le_of_standsAt hw ht')
      have hlead : t <+: w := List.prefix_of_prefix_length_le (prefix_of_standsAt ht')
        (List.prefix_append w rest) (Nat.le_of_eq hlength)
      rw [hlead.eq_of_length hlength] at ht
      exact hold ht

/-- A word that no token begins at is plain. -/
theorem segmentsFrom_plain_word {names : List (List Char)} {w rest : List Char} (hw : IsWord w)
    (hnone : longestAt? names (w ++ rest) = none) :
    segmentsFrom names false 0 (w ++ rest)
      = w.map .plain ++ segmentsFrom names true 0 rest := by
  obtain ⟨c, v, rfl⟩ := List.exists_cons_of_ne_nil hw.1
  have hv : ∀ d ∈ v, isWordChar d = true := fun d hd => hw.2 d (List.mem_cons_of_mem _ hd)
  rw [List.cons_append] at hnone ⊢
  rw [segmentsFrom, if_neg Bool.false_ne_true, hnone, hw.2 c List.mem_cons_self]
  show _ :: segmentsFrom names true 0 (v ++ rest) = _
  rw [segmentsFrom_inWord names hv]
  rfl

/-- **New tokens that are names only take the place of whole plain names.** -/
theorem gathered_segmentsFrom {names others : List (List Char)} (h : Extends names others)
    (inWord : Bool) (skip : Nat) (cs : List Char) :
    Gathered (segmentsFrom names inWord skip cs) (segmentsFrom others inWord skip cs) := by
  match cs, skip, inWord with
  | [], skip, inWord =>
    rw [segmentsFrom, segmentsFrom]
    split
    · exact .nil
    · rcases h.longestAt?_cases [] with hsame | ⟨-, w, rest, -, hnil, -, hw, -⟩
      · rw [hsame]
        cases longestAt? names [] with
        | none => exact .nil
        | some t => exact .same _ .nil
      · exact absurd (List.append_eq_nil_iff.mp hnil.symm).1 hw.1
  | c :: cs, skip + 1, inWord =>
    rw [segmentsFrom, segmentsFrom]
    exact gathered_segmentsFrom h _ _ cs
  | c :: cs, 0, true =>
    rw [segmentsFrom, segmentsFrom, if_pos rfl]
    exact .same _ (gathered_segmentsFrom h _ _ cs)
  | c :: cs, 0, false =>
    rcases h.longestAt?_cases (c :: cs) with
      hsame | ⟨hnone, w, rest, hfound, htext, -, hw, hname⟩
    · rw [segmentsFrom, segmentsFrom, hsame]
      split
      · exact .same _ (gathered_segmentsFrom h _ _ cs)
      · exact .same _ (.same _ (gathered_segmentsFrom h _ _ cs))
      · exact .same _ (gathered_segmentsFrom h _ _ cs)
    · -- the new token is cut off, and its characters were plain before
      have hshort := length_le_of_cons_eq_append htext hw.1
      rw [htext] at hnone hfound ⊢
      rw [segmentsFrom_plain_word hw hnone, segmentsFrom_token hw.1 hfound, hw.endsInWord]
      exact .name hw hname (gathered_segmentsFrom h true 0 rest)
  termination_by cs.length

/-! ## Gathering around a number -/

namespace Gathered

variable {segs others front back : List Segment}

theorem chars_eq (h : Gathered segs others) :
    segs.flatMap Segment.chars = others.flatMap Segment.chars := by
  induction h with
  | nil => rfl
  | same s _ ih => rw [List.flatMap_cons, List.flatMap_cons, ih]
  | @name w _ _ _ _ _ ih =>
    rw [List.flatMap_append, List.flatMap_cons, ih, List.flatMap_map]
    show w.flatMap (fun c => [c]) ++ _ = w ++ _
    rw [List.flatMap_singleton']

/-- A bound that comes first stays where it is. -/
theorem head?_bounds (h : Gathered segs others) (hsegs : ∀ s, segs.head? = some s → s.Bounds) :
    ∀ s, others.head? = some s → s.Bounds := by
  cases h with
  | nil => exact hsegs
  | same s _ => exact hsegs
  | @name w hw _ _ _ _ =>
    obtain ⟨c, w, rfl⟩ := List.exists_cons_of_ne_nil hw.1
    exact absurd (hsegs _ rfl) (Segment.not_bounds (hw.2 c List.mem_cons_self))

theorem eq_nil_iff (h : Gathered segs others) : segs = [] ↔ others = [] := by
  cases h with
  | nil => exact Iff.rfl
  | same s rest => simp
  | name hw _ _ => simp [hw.1]

/-- A bound that comes last stays where it is. -/
theorem getLast?_bounds (h : Gathered segs others)
    (hsegs : ∀ s, segs.getLast? = some s → s.Bounds) :
    ∀ s, others.getLast? = some s → s.Bounds := by
  induction h with
  | nil => exact hsegs
  | @same s segs others rest ih =>
    by_cases hnil : segs = []
    · rw [hnil] at hsegs
      rw [rest.eq_nil_iff.mp hnil]
      exact hsegs
    · have hne : others ≠ [] := fun h => hnil (rest.eq_nil_iff.mpr h)
      rw [List.getLast?_cons_of_ne_nil hnil] at hsegs
      rw [List.getLast?_cons_of_ne_nil hne]
      exact ih hsegs
  | @name w hw hname segs others rest ih =>
    by_cases hnil : segs = []
    · -- a name does not end with a bound
      exfalso
      obtain ⟨init, c, rfl⟩ := (List.eq_nil_or_concat w).resolve_left hw.1
      have hlast : (((init.concat c).map Segment.plain) ++ segs).getLast? = some (.plain c) := by
        simp [hnil]
      exact Segment.not_bounds (hw.2 c (by simp)) (hsegs _ hlast)
    · have hne : others ≠ [] := fun h => hnil (rest.eq_nil_iff.mpr h)
      rw [List.getLast?_append_of_ne_nil _ hnil] at hsegs
      rw [List.getLast?_cons_of_ne_nil hne]
      exact ih hsegs

/-- Names are not gathered across a bound. -/
theorem of_append (h : Gathered (front ++ back) others)
    (hfront : ∀ s, front.getLast? = some s → s.Bounds) :
    ∃ front' back', others = front' ++ back' ∧ Gathered front front' ∧ Gathered back back' := by
  generalize hsegs : front ++ back = segs at h
  induction h generalizing front with
  | nil =>
    obtain ⟨rfl, rfl⟩ := List.append_eq_nil_iff.mp hsegs
    exact ⟨[], [], rfl, .nil, .nil⟩
  | @same s segs others rest ih =>
    cases front with
    | nil =>
      obtain rfl : back = s :: segs := hsegs
      exact ⟨[], s :: others, rfl, .nil, .same s rest⟩
    | cons t front =>
      obtain ⟨rfl, rfl⟩ := List.cons.inj hsegs
      have hlast : ∀ u, front.getLast? = some u → u.Bounds := fun u hu =>
        hfront u (by simp [List.getLast?_cons, hu])
      obtain ⟨front', back', rfl, hgathered, hback⟩ := ih hlast rfl
      exact ⟨t :: front', back', rfl, .same t hgathered, hback⟩
  | @name w hw hname segs others rest ih =>
    rcases List.append_eq_append_iff.mp hsegs with ⟨more, hsplit, rfl⟩ | ⟨more, rfl, rfl⟩
    · rcases List.eq_nil_or_concat front with rfl | ⟨init, s, rfl⟩
      · rw [List.nil_append] at hsplit
        rw [← hsplit]
        exact ⟨[], .token w :: others, rfl, .nil, .name hw hname rest⟩
      · -- the bound would be a character of the name
        exfalso
        rw [List.concat_eq_append] at hfront hsplit
        have hmem : s ∈ w.map Segment.plain := by
          rw [hsplit]
          simp
        obtain ⟨c, hc, rfl⟩ := List.mem_map.mp hmem
        exact Segment.not_bounds (hw.2 c hc) (hfront _ (by simp))
    · have hlast : ∀ u, more.getLast? = some u → u.Bounds := fun u hu =>
        hfront u (by simp [List.getLast?_append, hu])
      obtain ⟨front', back', rfl, hgathered, hback⟩ := ih hlast rfl
      exact ⟨.token w :: front', back', rfl, .name hw hname hgathered, hback⟩

/-- No name begins within a number. -/
theorem of_number {ds : List Char} (hds : ∀ c ∈ ds, IsNumberChar c)
    (h : Gathered (ds.map .plain ++ back) others) :
    ∃ back', others = ds.map .plain ++ back' ∧ Gathered back back' := by
  induction ds generalizing others with
  | nil => exact ⟨others, rfl, h⟩
  | cons c ds ih =>
    generalize hsegs : (c :: ds).map Segment.plain ++ back = segs at h
    cases h with
    | nil => cases hsegs
    | same s rest =>
      obtain ⟨rfl, rfl⟩ := List.cons.inj hsegs
      obtain ⟨back', rfl, hback⟩ := ih (fun d hd => hds d (List.mem_cons_of_mem _ hd)) rest
      exact ⟨back', rfl, hback⟩
    | @name w hw hname segs others rest =>
      exfalso
      obtain ⟨d, w, rfl⟩ := List.exists_cons_of_ne_nil hw.1
      obtain rfl : c = d := Segment.plain.inj (List.cons.inj hsegs).1
      have hword : isWordChar c = true := hw.2 c List.mem_cons_self
      rcases hds c List.mem_cons_self with hdigit | rfl
      · rw [isAsciiDigit_eq] at hdigit
        simp [isName, hdigit] at hname
      · exact absurd hword (by decide)

end Gathered

/-- **A number that stands plain does so with more tokens**, if the new ones are names, in the same
place. -/
theorem StandsPlain.extend {names others : List (List Char)} (hextends : Extends names others)
    {front back : List Segment} {ds cs : List Char} (hds : IsNumber ds)
    (h : StandsPlain names front ds back cs) :
    ∃ front' back', StandsPlain others front' ds back' cs
      ∧ front'.flatMap Segment.chars = front.flatMap Segment.chars
      ∧ back'.flatMap Segment.chars = back.flatMap Segment.chars := by
  have hgathered : Gathered (segments names cs) (segments others cs) :=
    gathered_segmentsFrom hextends false 0 cs
  rw [h.cut] at hgathered
  obtain ⟨front', rest, hcut, hfront, hrest⟩ := hgathered.of_append h.left
  obtain ⟨back', rfl, hback⟩ := hrest.of_number fun c hc => hds.isNumberChar c hc
  exact ⟨front', back', ⟨hcut, hfront.getLast?_bounds h.left, hback.head?_bounds h.right⟩,
    hfront.chars_eq.symm, hback.chars_eq.symm⟩

end Tariff.Expression

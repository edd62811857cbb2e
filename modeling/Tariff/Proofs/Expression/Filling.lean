import Mathlib.Data.List.Chain
import Tariff.Proofs.Expression.Factor

/-!
# Expressions filled in differently

An expression is filled in with contributions for its tokens. If one choice of contributions leaves
an expression without names, then so does any other (`refilled`), as long as every contribution
spells an atom and no token stands right beside a point or another token (`Spaced`). Without the
second condition two contributions, or a contribution and what is written beside it, could spell a
single number.

The stretches of the expression are the same for both choices. Between them the text is cut into
symbols in the same way (`related_of_spells`), so that only atoms are exchanged.
-/

namespace Tariff.Expression

open Text Tariff.Expression.Parser

/-! ## Neighbours of tokens -/

/-- Two stretches that should not meet: a token beside a point or another token. -/
def Segment.Clash : Segment → Segment → Prop
  | .token _, .token _ => True
  | .token _, .plain c => c = '.'
  | .plain c, .token _ => c = '.'
  | .plain _, .plain _ => False

instance (a b : Segment) : Decidable (a.Clash b) := by
  cases a <;> cases b <;> unfold Segment.Clash <;> infer_instance

/-- No token stands right beside a point or another token. -/
def Spaced (segs : List Segment) : Prop :=
  segs.IsChain fun a b => ¬ a.Clash b

instance (segs : List Segment) : Decidable (Spaced segs) :=
  inferInstanceAs (Decidable (List.IsChain _ _))

/-- A word does not go on from a token, nor into one. -/
def Segment.WordEnds : Segment → Segment → Prop
  | .token _, .plain c => isWordChar c = false
  | .plain c, .token _ => isWordChar c = false
  | _, _ => True

/-- A number does not go on from a token, nor into one. -/
def Segment.NumberStops : Segment → Segment → Prop
  | .token _, .token _ => False
  | .token _, .plain c => ¬ IsNumberChar c
  | .plain c, .token _ => ¬ IsNumberChar c
  | .plain _, .plain _ => True

theorem Segment.numberStops {a b : Segment} (hword : a.WordEnds b) (hclash : ¬ a.Clash b) :
    a.NumberStops b := by
  cases a with
  | token name =>
    cases b with
    | token other => exact hclash trivial
    | plain c => exact not_isNumberChar_of_outside hword hclash
  | plain c =>
    cases b with
    | token name => exact not_isNumberChar_of_outside hword hclash
    | plain d => trivial

section Segments

variable {names : List (List Char)}

/-- Inside a word no token is cut. -/
theorem head?_segmentsFrom_inWord (cs : List Char) (name : List Char) :
    (segmentsFrom names true 0 cs).head? ≠ some (.token name) := by
  cases cs with
  | nil => simp [segmentsFrom]
  | cons c cs => simp [segmentsFrom]

/-- A character that is cut first is the first one that is not skipped. -/
theorem head?_of_head?_segmentsFrom {inWord : Bool} {skip : Nat} {cs : List Char} {d : Char}
    (h : (segmentsFrom names inWord skip cs).head? = some (.plain d)) :
    (cs.drop skip).head? = some d := by
  induction cs generalizing inWord skip with
  | nil =>
    exfalso
    rw [segmentsFrom] at h
    split at h
    · cases h
    · cases hlongest : longestAt? names [] <;> rw [hlongest] at h <;> cases h
  | cons c cs ih =>
    cases skip with
    | succ skip =>
      rw [segmentsFrom] at h
      exact ih h
    | zero =>
      rw [segmentsFrom] at h
      rw [List.drop_zero]
      split at h
      · cases h
        rfl
      · cases h
      · cases h

/-- **Words end at tokens.** -/
theorem wordEnds_segmentsFrom (hne : [] ∉ names) (inWord : Bool) (skip : Nat) (cs : List Char) :
    (segmentsFrom names inWord skip cs).IsChain Segment.WordEnds := by
  induction cs generalizing inWord skip with
  | nil =>
    rw [segmentsFrom]
    split
    · exact .nil
    · cases longestAt? names [] with
      | none => exact .nil
      | some w => exact .singleton _
  | cons c cs ih =>
    cases skip with
    | succ skip =>
      rw [segmentsFrom]
      exact ih _ _
    | zero =>
      rw [segmentsFrom]
      split
      · refine (ih _ _).cons fun next hnext => ?_
        cases next with
        | plain d => trivial
        | token name =>
          show isWordChar c = false
          by_contra hword
          rw [Bool.not_eq_false] at hword
          rw [hword] at hnext
          exact head?_segmentsFrom_inWord cs name hnext
      · next hlongest =>
        split at hlongest
        · cases hlongest
        · exact absurd (longestAt?_mem hlongest).1 hne
      · next t ts hlongest =>
        refine (ih _ _).cons fun next hnext => ?_
        cases next with
        | token name => trivial
        | plain d =>
          split at hlongest
          · cases hlongest
          · -- behind the token no word goes on
            have hstands := (longestAt?_mem hlongest).2
            rw [standsAt, Bool.and_eq_true, Bool.not_eq_true'] at hstands
            have hbehind : startsInWord (cs.drop ts.length) = false := hstands.2
            have hhead := head?_of_head?_segmentsFrom hnext
            show isWordChar d = false
            obtain ⟨rest, hrest⟩ := List.head?_eq_some_iff.mp hhead
            rw [hrest] at hbehind
            exact hbehind

theorem mem_names_of_mem_segmentsFrom {inWord : Bool} {skip : Nat} {cs name : List Char}
    (h : .token name ∈ segmentsFrom names inWord skip cs) : name ∈ names := by
  induction cs generalizing inWord skip with
  | nil =>
    rw [segmentsFrom] at h
    split at h
    · cases h
    · cases hlongest : longestAt? names [] with
      | none => rw [hlongest] at h; cases h
      | some w =>
        rw [hlongest] at h
        obtain rfl : name = w := by simpa using h
        exact (longestAt?_mem hlongest).1
  | cons c cs ih =>
    cases skip with
    | succ skip =>
      rw [segmentsFrom] at h
      exact ih h
    | zero =>
      rw [segmentsFrom] at h
      split at h
      · exact ih (by simpa using h)
      · next hlongest =>
        split at hlongest
        · cases hlongest
        · rcases List.mem_cons.mp h with heq | h
          · cases heq
            exact (longestAt?_mem hlongest).1
          · exact ih (by simpa using h)
      · next t ts hlongest =>
        split at hlongest
        · cases hlongest
        · rcases List.mem_cons.mp h with heq | h
          · cases heq
            exact (longestAt?_mem hlongest).1
          · exact ih h

/-- Where tokens are spaced, numbers stop at them. -/
theorem Spaced.numberStops {cs : List Char} (h : Spaced (segments names cs)) (hne : [] ∉ names) :
    (segments names cs).IsChain Segment.NumberStops := by
  have hwords : (segments names cs).IsChain Segment.WordEnds := wordEnds_segmentsFrom hne _ _ _
  revert h hwords
  generalize segments names cs = segs
  intro h hwords
  induction segs with
  | nil => exact .nil
  | cons a segs ih =>
    rw [Spaced, List.isChain_cons] at h
    rw [List.isChain_cons] at hwords
    exact (ih h.2 hwords.2).cons fun b hb => Segment.numberStops (hwords.1 b hb) (h.1 b hb)

end Segments

/-! ## Texts that differ in their contributions -/

/-- The text of some stretches. -/
def rendered (tokens : Replacements) (segs : List Segment) : List Char :=
  segs.flatMap (Segment.render tokens)

/-- Behind a token no number goes on, whatever stands for the tokens. -/
theorem parted_rendered {name factor : List Char} {segs : List Segment}
    (h : (.token name :: segs : List Segment).IsChain Segment.NumberStops) (tokens : Replacements) :
    Parted factor (rendered tokens segs) := by
  cases segs with
  | nil => exact fun c d _ hd => by cases hd
  | cons next segs =>
    have hnext : Segment.NumberStops (.token name) next := (List.isChain_cons_cons.mp h).1
    cases next with
    | token other => exact hnext.elim
    | plain e =>
      intro c d _ hd _
      obtain rfl : e = d := Option.some.inj hd
      exact hnext

/-- **Where numbers stop at tokens, the rest of the text is cut in the same way.** If the tokens are
filled in with texts that spell related rows, the whole texts spell related rows. What is written
before the first token may already have been read as `front`. -/
theorem related_of_spells {E : List Symbol → List Symbol → Prop} (hrefl : ∀ row, E row row)
    (happend : ∀ {a a' b b'}, E a a' → E b b' → E (a ++ b) (a' ++ b'))
    {tokens others : Replacements} {segs : List Segment} (hstops : segs.IsChain Segment.NumberStops)
    (hrelated : ∀ name, .token name ∈ segs → ∃ x y, Spells (Segment.render tokens (.token name)) x
      ∧ Spells (Segment.render others (.token name)) y ∧ E x y)
    {front : List Char} {row : List Symbol}
    (hfront : ∀ c name, front.getLast? = some c → segs.head? = some (.token name) →
      ¬ IsNumberChar c)
    (h : Spells (front ++ rendered tokens segs) row) :
    ∃ row', E row row' ∧ Spells (front ++ rendered others segs) row' := by
  induction segs generalizing front row with
  | nil => exact ⟨row, hrefl row, h⟩
  | cons s segs ih =>
    have hrest := (List.isChain_cons.mp hstops).2
    have hrelated' := fun name hname => hrelated name (List.mem_cons_of_mem s hname)
    cases s with
    | plain c =>
      have hsplit : ∀ rs, front ++ rendered rs (.plain c :: segs)
          = front ++ [c] ++ rendered rs segs := by
        intro rs
        rw [List.append_assoc]
        rfl
      rw [hsplit] at h ⊢
      refine ih hrest hrelated' (fun d name hd hname => ?_) h
      obtain rfl : c = d := by simpa using hd
      exact (List.isChain_cons.mp hstops).1 _ hname
    | token name =>
      obtain ⟨x, y, hspells, hspells', hxy⟩ := hrelated name List.mem_cons_self
      have hparted : ∀ b, Parted front b := fun b c d hc _ hnumber _ => hfront c name hc rfl hnumber
      -- the text is cut before and behind the contribution
      obtain ⟨s, t, rfl, hs, ht⟩ := h.exists_of_append (hparted _)
      have hcut : Spells (Segment.render tokens (.token name) ++ rendered tokens segs) t := ht
      obtain ⟨x', rest, rfl, hx', hrow⟩ := hcut.exists_of_append (parted_rendered hstops tokens)
      obtain rfl := hx'.unique hspells
      have hstart : ∀ c name, ([] : List Char).getLast? = some c →
          segs.head? = some (.token name) → ¬ IsNumberChar c := fun c name hc => by cases hc
      obtain ⟨rest', hrests, hrow'⟩ := ih hrest hrelated' hstart hrow
      refine ⟨s ++ (y ++ rest'), happend (hrefl s) (happend hxy hrests), ?_⟩
      refine hs.append_of_parted ?_ (hparted _)
      exact hspells'.append_of_parted hrow' (parted_rendered hstops others)

/-! ## Texts without names -/

/-- A character that belongs to words and to expressions is a digit. -/
theorem isAsciiDigit_of_isExpressionChar {c : Char} (h : isExpressionChar c = true)
    (hword : isWordChar c = true) : isAsciiDigit c = true := by
  simp only [isExpressionChar, Bool.or_eq_true, beq_iff_eq] at h
  rcases h with ((hdigit | rfl) | hsign) | hblank
  · exact hdigit
  · exact absurd hword (by decide)
  · obtain ⟨s, hs⟩ := Option.isSome_iff_exists.mp hsign
    have hsigns : ['+', '-', '*', '/', '(', ')'].all (fun d => !isWordChar d) = true := by decide
    have hnot := List.all_eq_true.mp hsigns c (mem_signs_of_ofChar? hs)
    simp [hword] at hnot
  · rw [isWordChar_of_isBlank hblank] at hword
    cases hword

/-- What spells symbols has no names. -/
theorem Spells.namesIn_eq_nil {cs : List Char} {row : List Symbol} (h : Spells cs row) :
    namesIn false (pieces cs) = [] :=
  Expression.namesIn_eq_nil (fun _ hw => isName_of_mem_pieces
    (fun c hc hword => isAsciiDigit_of_isExpressionChar (h.isExpressionChar c hc) hword) hw) false

/-- **An expression that is filled in well can be filled in otherwise.** If the contributions of
some tokens leave a text without names that has a tree, so do any others that spell atoms. -/
theorem refilled {cs : List Char} {tokens others : Replacements}
    (hkeys : tokens.map (·.1) = others.map (·.1)) (hne : [] ∉ tokens.map (·.1))
    (hspaced : Spaced (segments (tokens.map (·.1)) cs))
    (htokens : ∀ name, .token name ∈ segments (tokens.map (·.1)) cs →
      SpellsAtom (Segment.render tokens (.token name)))
    (hothers : ∀ name, .token name ∈ segments (tokens.map (·.1)) cs →
      SpellsAtom (Segment.render others (.token name)))
    (hunknown : (substitute cs tokens).unknown = []) {t : Tree} {limit : Nat}
    (htree : Tree.ofText (substitute cs tokens).text limit = .ok t) :
    (substitute cs others).unknown = []
      ∧ ∃ u row, Spells (substitute cs others).text row ∧ Derives .sum u row := by
  rw [substitute_unknown_eq_nil_iff] at hunknown ⊢
  rw [substitute_text, zeroed_eq_self_of_namesIn hunknown] at htree
  obtain ⟨row, hspells, hderives⟩ := spells_of_ofText htree
  have hrest : rendered others (segments (tokens.map (·.1)) cs) = replaceTokens others cs := by
    rw [hkeys]
    rfl
  have hstart : ∀ c name, ([] : List Char).getLast? = some c →
      (segments (tokens.map (·.1)) cs).head? = some (.token name) → ¬ IsNumberChar c :=
    fun c name hc => by cases hc
  -- one atom is exchanged for another at every token
  have hatoms : ∀ name, .token name ∈ segments (tokens.map (·.1)) cs →
      ∃ x y, Spells (Segment.render tokens (.token name)) x
        ∧ Spells (Segment.render others (.token name)) y ∧ Exchanged x y := by
    intro name hname
    obtain ⟨x, hspellsX, hx⟩ := htokens name hname
    obtain ⟨y, hspellsY, hy⟩ := hothers name hname
    exact ⟨x, y, hspellsX, hspellsY, .ofAtoms hx hy⟩
  obtain ⟨row', hexchanged, hspells'⟩ :=
    related_of_spells Exchanged.refl Exchanged.append (hspaced.numberStops hne) hatoms hstart
      hspells
  rw [List.nil_append, hrest] at hspells'
  have hnames := hspells'.namesIn_eq_nil
  obtain ⟨u, hu⟩ : ∃ u, Derives .sum u ([] ++ row') := hexchanged.derives hderives
  refine ⟨hnames, u, row', ?_, hu⟩
  rw [substitute_text, zeroed_eq_self_of_namesIn hnames]
  exact hspells'

end Tariff.Expression

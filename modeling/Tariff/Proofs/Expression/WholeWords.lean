import Mathlib.Data.List.Chain
import Tariff.Proofs.Expression.Composition
import Tariff.Proofs.Expression.Renaming

/-!
# Whole words are substituted

What a substitution does to a text is said here with the text alone, without the walk that cuts it.
`IsCut` is the cut of a text into its maximal runs of word characters and the characters between
them; there is exactly one (`isCut_iff`). Over this cut:

* the token pass writes the factor of a token for every run that equals the token, and nothing else
  changes (`replaceTokens_of_isCut`);
* the second pass writes zero for every name that stands free of a point (`zeroNames_eq_flatMap`)
  and reports these names, each once (`namesIn_eq_filterMap`, `pairwise_idxOf_eraseDups`);
* a text that has gone through it has no such name any more (`namesIn_zeroed`).

`substitute_whole_words` puts this together.
-/

namespace Tariff.Expression

variable {ps : List Piece} {cs : List Char}

/-! ## The cut of a text -/

/-- A piece as it stands in a cut: a word is one, and a gap is a character outside words. -/
def Piece.Proper : Piece → Prop
  | .word w => IsWord w
  | .gap c => isWordChar c = false

/-- Two words that should be one. -/
def Piece.Torn : Piece → Piece → Prop
  | .word _, .word _ => True
  | _, _ => False

/-- A text is cut into its maximal runs of word characters and the characters between them. -/
structure IsCut (ps : List Piece) (cs : List Char) : Prop where
  text : ps.flatMap Piece.text = cs
  proper : ∀ p ∈ ps, p.Proper
  maximal : ps.IsChain fun a b => ¬ a.Torn b

/-- Behind a piece that is not torn from the next word no word goes on. -/
theorem startsInWord_of_not_torn {w : List Char} (h : (Piece.word w :: ps).IsChain (¬ ·.Torn ·))
    (hproper : ∀ p ∈ ps, p.Proper) : startsInWord (ps.flatMap Piece.text) = false := by
  cases ps with
  | nil => rfl
  | cons p ps =>
    cases p with
    | word v => exact absurd trivial (List.isChain_cons_cons.mp h).1
    | gap c => exact hproper (.gap c) List.mem_cons_self

theorem IsCut.eq_pieces (h : IsCut ps cs) : ps = pieces cs := by
  obtain ⟨rfl, hproper, hmaximal⟩ := h
  induction ps with
  | nil => rfl
  | cons p ps ih =>
    have hrest : ∀ q ∈ ps, q.Proper := fun q hq => hproper q (List.mem_cons_of_mem _ hq)
    have hps := ih hrest (List.isChain_cons.mp hmaximal).2
    have hp : p.Proper := hproper p List.mem_cons_self
    rw [List.flatMap_cons]
    cases p with
    | word w =>
      show _ = pieces (w ++ ps.flatMap Piece.text)
      rw [pieces_word hp (startsInWord_of_not_torn hmaximal hrest), ← hps]
    | gap c =>
      show _ = pieces (c :: ps.flatMap Piece.text)
      rw [pieces_gap hp, ← hps]

theorem isCut_pieces (cs : List Char) : IsCut (pieces cs) cs := by
  induction cs using wordRuns with
  | hnil => exact ⟨rfl, by simp [pieces], .nil⟩
  | hgap c cs hc ih =>
    rw [pieces_gap hc]
    refine ⟨by rw [List.flatMap_cons, ih.text]; rfl, ?_, ih.maximal.cons fun q _ => id⟩
    exact List.forall_mem_cons.mpr ⟨hc, ih.proper⟩
  | hword w cs hw hcs ih =>
    rw [pieces_word hw hcs]
    refine ⟨by rw [List.flatMap_cons, ih.text]; rfl, ?_, ih.maximal.cons fun q hq => ?_⟩
    · exact List.forall_mem_cons.mpr ⟨hw, ih.proper⟩
    · -- the next piece starts the rest of the text, which starts no word
      cases cs with
      | nil => cases hq
      | cons c cs =>
        rw [pieces_gap (isWordChar_of_startsInWord hcs)] at hq
        cases hq
        exact id

/-- **Every text has exactly one cut.** -/
theorem isCut_iff : IsCut ps cs ↔ ps = pieces cs :=
  ⟨IsCut.eq_pieces, fun h => h ▸ isCut_pieces cs⟩

/-! ## The token pass -/

theorem words_of_tokens {tokens : OrderedMap Contribution}
    (htokens : ∀ e ∈ tokens, IsWord e.1.toList) : (replacements tokens).Words := by
  intro t ht
  obtain ⟨e, he, rfl⟩ := List.mem_map.mp ht
  exact htokens e he

theorem lookup_word (tokens : OrderedMap Contribution) (w : List Char) :
    (replacements tokens).lookup w = (tokens.find? (String.ofList w)).map Contribution.factor := by
  have hlookup := lookup_replacements tokens (String.ofList w)
  rwa [String.toList_ofList] at hlookup

/-- What stands for a piece: the factor of a word that is a token, and any other piece itself. -/
def Piece.filled (tokens : OrderedMap Contribution) : Piece → List Char
  | .word w => ((tokens.find? (String.ofList w)).map Contribution.factor).getD w
  | .gap c => [c]

/-- **The token pass fills in the runs that are tokens.** -/
theorem replaceTokens_of_isCut {tokens : OrderedMap Contribution}
    (htokens : ∀ e ∈ tokens, IsWord e.1.toList) (hcut : IsCut ps cs) :
    replaceTokens (replacements tokens) cs = ps.flatMap (Piece.filled tokens) := by
  rw [replaceTokens_eq_pieces (words_of_tokens htokens), ← hcut.eq_pieces]
  refine List.flatMap_congr fun p _ => ?_
  cases p with
  | word w => rw [Piece.replaced, Piece.filled, lookup_word]
  | gap c => rfl

/-- A token that is no run of a text does not matter to it. -/
theorem substitute_of_agree {tokens others : OrderedMap Contribution}
    (htokens : ∀ e ∈ tokens, IsWord e.1.toList) (hothers : ∀ e ∈ others, IsWord e.1.toList)
    (hcut : IsCut ps cs)
    (hagree : ∀ w, .word w ∈ ps →
      others.find? (String.ofList w) = tokens.find? (String.ofList w)) :
    substitute cs (replacements others) = substitute cs (replacements tokens) := by
  have hreplace : replaceTokens (replacements others) cs
      = replaceTokens (replacements tokens) cs := by
    rw [replaceTokens_of_isCut hothers hcut, replaceTokens_of_isCut htokens hcut]
    refine List.flatMap_congr fun p hp => ?_
    cases p with
    | word w => rw [Piece.filled, Piece.filled, hagree w hp]
    | gap c => rfl
  rw [substitute, substitute, hreplace]

/-! ## The pass over names -/

/-- The pieces of a text, each with the one before it. -/
def withPrevious : Option Piece → List Piece → List (Option Piece × Piece)
  | _, [] => []
  | previous, p :: ps => (previous, p) :: withPrevious (some p) ps

/-- The name that a piece is, unless a point stands right before it. -/
def freeName? : Option Piece × Piece → Option (List Char)
  | (previous, .word w) => if isName w && previous != some (.gap '.') then some w else none
  | (_, .gap _) => none

/-- The names of a text that no point stands right before, from left to right. -/
def freeNames (ps : List Piece) : List (List Char) :=
  (withPrevious none ps).filterMap freeName?

/-- What the second pass writes for a piece: zero for a free name, and any other piece itself. -/
def zeroFree (e : Option Piece × Piece) : List Char :=
  if (freeName? e).isSome then ['0'] else e.2.text

theorem freeName?_word (previous : Option Piece) (w : List Char) :
    freeName? (previous, .word w)
      = if isName w && !(previous == some (.gap '.')) then some w else none := rfl

/-- Only a point before a word keeps it from being a free name. -/
theorem gap_beq_point (c : Char) : (some (Piece.gap c) == some (.gap '.')) = (c == '.') := by
  rw [Bool.eq_iff_iff, beq_iff_eq, beq_iff_eq]
  simp

theorem zeroNames_eq_flatMap (previous : Option Piece) (ps : List Piece) :
    zeroNames (previous == some (.gap '.')) ps = (withPrevious previous ps).flatMap zeroFree := by
  induction ps generalizing previous with
  | nil => rfl
  | cons p ps ih =>
    rw [withPrevious, List.flatMap_cons, ← ih]
    cases p with
    | word w =>
      rw [zeroNames, zeroFree, freeName?_word]
      split <;> rfl
    | gap c =>
      rw [zeroNames, gap_beq_point]
      rfl

theorem namesIn_eq_filterMap (previous : Option Piece) (ps : List Piece) :
    namesIn (previous == some (.gap '.')) ps = (withPrevious previous ps).filterMap freeName? := by
  induction ps generalizing previous with
  | nil => rfl
  | cons p ps ih =>
    cases p with
    | word w =>
      have hword : namesIn false ps = (withPrevious (some (.word w)) ps).filterMap freeName? :=
        ih (some (.word w))
      rw [withPrevious, namesIn, List.filterMap_cons, freeName?_word, ← hword]
      split <;> rfl
    | gap c =>
      have hgap := ih (some (.gap c))
      rw [gap_beq_point] at hgap
      rw [namesIn, hgap]
      rfl

theorem namesIn_false (ps : List Piece) : namesIn false ps = freeNames ps :=
  namesIn_eq_filterMap none ps

theorem startsInWord_zeroNames {afterPoint : Bool} (h : startsInWord cs = false) :
    startsInWord (zeroNames afterPoint (pieces cs)) = false := by
  cases cs with
  | nil => rfl
  | cons c cs =>
    rw [pieces_gap (isWordChar_of_startsInWord h)]
    exact h

/-- **No name is left free.** -/
theorem namesIn_zeroed (cs : List Char) : namesIn false (pieces (zeroed cs)) = [] := by
  -- what the pass finds depends on a point before the text, so both cases are proved at once
  have hboth : ∀ afterPoint,
      namesIn afterPoint (pieces (zeroNames afterPoint (pieces cs))) = [] := by
    induction cs using wordRuns with
    | hnil => exact fun _ => rfl
    | hgap c cs hc ih =>
      intro afterPoint
      rw [pieces_gap hc, zeroNames, pieces_gap hc, namesIn]
      exact ih _
    | hword w cs hw hcs ih =>
      intro afterPoint
      have hrest : startsInWord (zeroNames false (pieces cs)) = false := startsInWord_zeroNames hcs
      have hzero : IsWord ['0'] := by decide
      rw [pieces_word hw hcs, zeroNames]
      split
      · rw [pieces_word hzero hrest, namesIn]
        exact ih false
      · next hkept =>
        rw [pieces_word hw hrest, namesIn, if_neg hkept]
        exact ih false
  exact hboth false

/-! ## Each name once -/

section FirstOccurrence

variable {α : Type} [BEq α] [LawfulBEq α]

/-- What is left out of a list does not change which of two others comes first. -/
theorem idxOf_lt_of_filter {p : α → Bool} {a b : α} (ha : p a = true) (hb : p b = true)
    {l : List α} (h : (l.filter p).idxOf a < (l.filter p).idxOf b) : l.idxOf a < l.idxOf b := by
  induction l with
  | nil => exact h
  | cons c l ih =>
    by_cases hc : p c = true
    · rw [List.filter_cons_of_pos hc, List.idxOf_cons, List.idxOf_cons] at h
      rw [List.idxOf_cons, List.idxOf_cons]
      cases hca : c == a with
      | true =>
        -- the first one stands here, and the second one does not
        cases hcb : c == b with
        | true => simp [hca, hcb] at h
        | false => exact Nat.succ_pos _
      | false =>
        cases hcb : c == b with
        | true => simp [hcb] at h
        | false =>
          rw [hca, hcb] at h
          exact Nat.succ_lt_succ (ih (Nat.lt_of_succ_lt_succ h))
    · have hne : ∀ d, p d = true → (c == d) = false := by
        intro d hd
        rw [beq_eq_false_iff_ne]
        rintro rfl
        exact hc hd
      rw [List.filter_cons_of_neg hc] at h
      rw [List.idxOf_cons, List.idxOf_cons, hne a ha, hne b hb]
      exact Nat.succ_lt_succ (ih h)

/-- Without repetitions a list keeps the order in which its entries first occur. -/
theorem pairwise_idxOf_eraseDups (l : List α) :
    l.eraseDups.Pairwise fun a b => l.idxOf a < l.idxOf b := by
  match l with
  | [] => simp
  | a :: l =>
    let other : α → Bool := fun b => !b == a
    have hrest := pairwise_idxOf_eraseDups (l.filter other)
    have hother : ∀ b ∈ (l.filter other).eraseDups, other b = true := fun b hb =>
      (List.mem_filter.mp (List.mem_eraseDups.mp hb)).2
    have hsucc : ∀ b, other b = true → (a :: l).idxOf b = l.idxOf b + 1 := by
      intro b hb
      have hne : (a == b) = false := by
        rw [beq_eq_false_iff_ne]
        rintro rfl
        simp [other] at hb
      rw [List.idxOf_cons, hne]
      rfl
    rw [List.eraseDups_cons, List.pairwise_cons]
    refine ⟨fun b hb => ?_, hrest.imp_of_mem fun {b c} hb hc hlt => ?_⟩
    · rw [hsucc b (hother b hb), List.idxOf_cons_self]
      exact Nat.succ_pos _
    · rw [hsucc b (hother b hb), hsucc c (hother c hc)]
      exact Nat.succ_lt_succ
        (idxOf_lt_of_filter (hother b hb) (hother c hc) hlt)
  termination_by l.length
  decreasing_by exact Nat.lt_succ_of_le (List.length_filter_le _ _)

end FirstOccurrence

/-- `ids` are the names of a list, each once and in the order of their first occurrence. -/
structure ListsOnce (ids : List String) (names : List (List Char)) : Prop where
  nodup : ids.Nodup
  mem_iff : ∀ id, id ∈ ids ↔ id.toList ∈ names
  ordered : ids.Pairwise fun a b => names.idxOf a.toList < names.idxOf b.toList

theorem listsOnce_eraseDups (names : List (List Char)) :
    ListsOnce (names.eraseDups.map String.ofList) names := by
  have hordered : (names.eraseDups.map String.ofList).Pairwise fun a b =>
      names.idxOf a.toList < names.idxOf b.toList := by
    rw [List.pairwise_map]
    simpa only [String.toList_ofList] using pairwise_idxOf_eraseDups names
  refine ⟨hordered.imp ?_, fun id => ?_, hordered⟩
  · rintro a b hlt rfl
    exact Nat.lt_irrefl _ hlt
  · rw [List.mem_map]
    constructor
    · rintro ⟨w, hw, rfl⟩
      rw [String.toList_ofList]
      exact List.mem_eraseDups.mp hw
    · intro hid
      exact ⟨id.toList, List.mem_eraseDups.mpr hid, String.ofList_toList⟩

/-! ## Both passes -/

/-- **A substitution replaces whole words.** Let `ps` be the cut of a text, and `qs` the cut of what
the token pass makes of it. The pass writes the factor of a token for exactly the runs that equal
it, whatever other tokens these runs start with, end with or hold, and any other tokens that agree
on the runs of the text make the same of it. Every name that then stands free of a point is written
as zero and listed once, in the order of first occurrence; nothing else changes, and what is left
has no such name. -/
theorem substitute_whole_words (cs : List Char) (tokens : OrderedMap Contribution)
    (htokens : ∀ e ∈ tokens, IsWord e.1.toList) :
    ∃ ps qs, IsCut ps cs ∧ IsCut qs (replaceTokens (replacements tokens) cs)
      ∧ replaceTokens (replacements tokens) cs = ps.flatMap (Piece.filled tokens)
      ∧ (∀ others : OrderedMap Contribution, (∀ e ∈ others, IsWord e.1.toList) →
        (∀ w, .word w ∈ ps → others.find? (String.ofList w) = tokens.find? (String.ofList w)) →
        substitute cs (replacements others) = substitute cs (replacements tokens))
      ∧ (substitute cs (replacements tokens)).text = (withPrevious none qs).flatMap zeroFree
      ∧ ListsOnce (substitute cs (replacements tokens)).unknown (freeNames qs)
      ∧ substitute (substitute cs (replacements tokens)).text (replacements [])
        = ⟨(substitute cs (replacements tokens)).text, []⟩ := by
  have hcut := isCut_pieces cs
  have hcut' := isCut_pieces (replaceTokens (replacements tokens) cs)
  refine ⟨_, _, hcut, hcut', replaceTokens_of_isCut htokens hcut, fun others hothers hagree => ?_,
    ?_, ?_, ?_⟩
  · exact substitute_of_agree htokens hothers hcut hagree
  · exact zeroNames_eq_flatMap none _
  · rw [substitute, namesIn_false]
    exact listsOnce_eraseDups _
  · have hnames := namesIn_zeroed (replaceTokens (replacements tokens) cs)
    rw [substitute_text]
    generalize zeroed (replaceTokens (replacements tokens) cs) = text at hnames
    have hreplace : replaceTokens (replacements []) text = text :=
      replaceTokens_eq_self Replacements.words_nil fun _ _ => rfl
    have htext : zeroNames false (pieces text) = text := zeroed_eq_self_of_namesIn hnames
    rw [substitute, hreplace, hnames, htext]
    rfl

/-- Tokens that start with one another are told apart, and a name that starts with them is none. -/
theorem substitute_whole_words_sqft :
    let tokens := [("sqft", Contribution.number (.whole 2)), ("sqft2", .number (.whole (-1)))]
    let cs := "sqft2+sqft_2*sqft-y+y".toList
    replaceTokens (replacements tokens) cs = "(-1)+sqft_2*2-y+y".toList
      ∧ (substitute cs (replacements tokens)).text = "(-1)+0*2-0+0".toList
      ∧ ListsOnce (substitute cs (replacements tokens)).unknown
        ["sqft_2".toList, "y".toList, "y".toList] := by
  intro tokens cs
  have htokens : ∀ e ∈ tokens, IsWord e.1.toList := by decide
  obtain ⟨ps, qs, hps, hqs, hreplace, -, htext, hunknown, -⟩ :=
    substitute_whole_words cs tokens htokens
  have hleft : replaceTokens (replacements tokens) cs = "(-1)+sqft_2*2-y+y".toList := by
    rw [hreplace, hps.eq_pieces]
    decide
  rw [hleft] at hqs
  rw [hqs.eq_pieces] at htext hunknown
  exact ⟨hleft, htext.trans (by decide), hunknown⟩

end Tariff.Expression

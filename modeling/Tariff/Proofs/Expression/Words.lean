import Mathlib.Data.List.TakeWhile
import Tariff.Expression.Substitution

/-!
# Whole words

Both passes of a substitution work on whole words. `segmentsFrom` walks a text character by
character, remembers whether it stands inside a word and skips the tokens it has cut; `pieces` cuts
the same text into its maximal runs of word characters. The two views agree as long as every token
is a word:

* `replaceTokens_eq_pieces` — the token pass replaces exactly the words that equal a token;
* `zeroed` — the second pass on its own, which writes the names that are left as zero;
* `replaceTokens_append`, `zeroed_append` and their `_gap` companions — both passes work on the two
  sides of a character outside words independently.
-/

namespace Tariff.Expression

/-- A word: at least one character, all of them word characters. -/
def IsWord (w : List Char) : Prop :=
  w ≠ [] ∧ ∀ c ∈ w, isWordChar c = true

instance (w : List Char) : Decidable (IsWord w) :=
  decidable_of_iff (w ≠ [] ∧ w.all isWordChar = true) (and_congr_right' List.all_eq_true)

/-- Every token is a word. -/
def Replacements.Words (tokens : Replacements) : Prop :=
  ∀ t ∈ tokens, IsWord t.1

theorem Replacements.words_nil : Replacements.Words [] := by
  intro t ht
  cases ht

/-- What is left of a text behind its first piece is shorter, which is why a walk that goes on there
ends. -/
theorem length_le_of_cons_eq_append {c : Char} {cs w rest : List Char} (h : c :: cs = w ++ rest)
    (hw : w ≠ []) : rest.length ≤ cs.length := by
  have hlength := congrArg List.length h
  rw [List.length_cons, List.length_append] at hlength
  have hpos := List.length_pos_iff.mpr hw
  omega

/-! ## Runs of word characters

Every text is built from characters outside words and words that cannot be made longer. This is the
induction that all proofs about `pieces` and `segmentsFrom` follow. -/

@[elab_as_elim]
theorem wordRuns {motive : List Char → Prop} (hnil : motive [])
    (hgap : ∀ c cs, isWordChar c = false → motive cs → motive (c :: cs))
    (hword : ∀ w cs, IsWord w → startsInWord cs = false → motive cs → motive (w ++ cs))
    (cs : List Char) : motive cs := by
  match hcs : cs with
  | [] => exact hnil
  | c :: rest =>
    by_cases hc : isWordChar c = true
    · have hsplit := List.takeWhile_append_dropWhile (p := isWordChar) (l := c :: rest)
      have hw : IsWord ((c :: rest).takeWhile isWordChar) := by
        refine ⟨by simp [hc], fun d hd => ?_⟩
        exact List.mem_takeWhile_imp hd
      have hstop : startsInWord ((c :: rest).dropWhile isWordChar) = false := by
        cases hdrop : (c :: rest).dropWhile isWordChar with
        | nil => rfl
        | cons d ds =>
          have hhead := List.head_dropWhile_not isWordChar (l := c :: rest) (by simp [hdrop])
          simpa [hdrop, startsInWord] using hhead
      have hshort : ((c :: rest).dropWhile isWordChar).length < (c :: rest).length := by
        rw [List.dropWhile_cons_of_pos hc, List.length_cons]
        exact Nat.lt_succ_of_le (List.dropWhile_suffix isWordChar).length_le
      rw [← hsplit]
      exact hword _ _ hw hstop (wordRuns hnil hgap hword _)
    · have hc' : isWordChar c = false := by simpa using hc
      exact hgap c rest hc' (wordRuns hnil hgap hword rest)
  termination_by cs.length
  decreasing_by
    all_goals
      subst hcs
      simp_all

/-- The first character of a text behind a whole word is outside words. -/
theorem isWordChar_of_startsInWord {c : Char} {cs : List Char}
    (h : startsInWord (c :: cs) = false) : isWordChar c = false := h

/-! ## Cutting a text into pieces -/

theorem pieces_gap {c : Char} (hc : isWordChar c = false) (cs : List Char) :
    pieces (c :: cs) = .gap c :: pieces cs := by
  rw [pieces, if_neg (by simp [hc])]

/-- A whole word is one piece. -/
theorem pieces_word {w cs : List Char} (hw : IsWord w) (hcs : startsInWord cs = false) :
    pieces (w ++ cs) = .word w :: pieces cs := by
  obtain ⟨hne, hall⟩ := hw
  induction w with
  | nil => exact absurd rfl hne
  | cons c w ih =>
    have hc : isWordChar c = true := hall c List.mem_cons_self
    rw [List.cons_append, pieces, if_pos hc]
    cases w with
    | nil =>
      cases cs with
      | nil => rfl
      | cons d ds => rw [List.nil_append, pieces_gap (isWordChar_of_startsInWord hcs)]
    | cons d ds => rw [ih (by simp) (fun e he => hall e (List.mem_cons_of_mem _ he))]

/-- A word on its own is one piece. -/
theorem pieces_eq_singleton {w : List Char} (hw : IsWord w) : pieces w = [.word w] := by
  have hpieces : pieces (w ++ []) = .word w :: pieces [] := pieces_word hw rfl
  rwa [List.append_nil] at hpieces

/-- Pieces of two texts that meet outside words are the pieces of both. -/
theorem pieces_append (a : List Char) {b : List Char} (hb : startsInWord b = false) :
    pieces (a ++ b) = pieces a ++ pieces b := by
  induction a using wordRuns with
  | hnil => rfl
  | hgap c cs hc ih => rw [List.cons_append, pieces_gap hc, pieces_gap hc, ih, List.cons_append]
  | hword w cs hw hcs ih =>
    have hmeet : startsInWord (cs ++ b) = false := by
      cases cs with
      | nil => exact hb
      | cons c cs => exact hcs
    rw [List.append_assoc, pieces_word hw hmeet, pieces_word hw hcs, ih, List.cons_append]

/-- Whether a word stands at the end of a text. -/
def endsInWord (cs : List Char) : Bool :=
  cs.getLast?.any isWordChar

theorem endsInWord_append (a : List Char) {b : List Char} (hb : b ≠ []) :
    endsInWord (a ++ b) = endsInWord b := by
  rw [endsInWord, endsInWord, List.getLast?_append, List.getLast?_eq_some_getLast hb]
  rfl

theorem IsWord.endsInWord {w : List Char} (hw : IsWord w) : endsInWord w = true := by
  rw [Expression.endsInWord, List.getLast?_eq_some_getLast hw.1]
  exact hw.2 _ (List.getLast_mem hw.1)

/-- Pieces of two texts of which the first one ends outside words. -/
theorem pieces_append_of_ends {a : List Char} (ha : endsInWord a = false) (b : List Char) :
    pieces (a ++ b) = pieces a ++ pieces b := by
  induction a using wordRuns with
  | hnil => rfl
  | hgap c cs hc ih =>
    have hcs : endsInWord cs = false := by
      cases cs with
      | nil => rfl
      | cons d cs => rwa [← endsInWord_append [c] (List.cons_ne_nil d cs)]
    rw [List.cons_append, pieces_gap hc, pieces_gap hc, ih hcs, List.cons_append]
  | hword w cs hw hcs ih =>
    cases cs with
    | nil =>
      -- the text would end with the last character of the word
      rw [List.append_nil, hw.endsInWord] at ha
      cases ha
    | cons d cs =>
      rw [endsInWord_append w (List.cons_ne_nil d cs)] at ha
      have hmeet : startsInWord (d :: cs ++ b) = false := hcs
      rw [List.append_assoc, pieces_word hw hmeet, pieces_word hw hcs, ih ha, List.cons_append]

/-- A word among the pieces of a text is a word, written with characters of the text. -/
theorem isWord_of_mem_pieces {w cs : List Char} (h : Piece.word w ∈ pieces cs) :
    IsWord w ∧ ∀ c ∈ w, c ∈ cs := by
  induction cs using wordRuns with
  | hnil => simp [pieces] at h
  | hgap c cs hc ih =>
    rw [pieces_gap hc] at h
    obtain ⟨hw, hmem⟩ := ih (by simpa using h)
    exact ⟨hw, fun d hd => List.mem_cons_of_mem _ (hmem d hd)⟩
  | hword v cs hv hcs ih =>
    rw [pieces_word hv hcs] at h
    rcases List.mem_cons.mp h with heq | htail
    · cases heq
      exact ⟨hv, fun d hd => List.mem_append_left _ hd⟩
    · obtain ⟨hw, hmem⟩ := ih htail
      exact ⟨hw, fun d hd => List.mem_append_right _ (hmem d hd)⟩

/-! ## Cutting a text into tokens

At the start of a whole word the only word that can stand there is that word; inside a word and at
a character outside words none can. -/

theorem standsAt_word_iff {t w cs : List Char} (ht : IsWord t) (hw : IsWord w)
    (hcs : startsInWord cs = false) : standsAt t (w ++ cs) = true ↔ t = w := by
  constructor
  · intro h
    simp only [standsAt, Bool.and_eq_true, List.isPrefixOf_iff_prefix, Bool.not_eq_true'] at h
    obtain ⟨hlead, hend⟩ := h
    rcases List.prefix_or_prefix_of_prefix hlead (List.prefix_append w cs) with htw | hwt
    · -- a proper prefix of `w` is followed by a word character
      obtain ⟨more, rfl⟩ := htw
      rw [List.append_assoc, List.drop_left] at hend
      cases more with
      | nil => simp
      | cons c more => exact absurd (hw.2 c (by simp)) (by simpa [startsInWord] using hend)
    · -- a longer word would hold the character behind `w`
      obtain ⟨more, rfl⟩ := hwt
      have hmore : more <+: cs := (List.prefix_append_right_inj w).mp hlead
      cases more with
      | nil => simp
      | cons c more =>
        obtain ⟨rest, rfl⟩ := hmore
        exact absurd (ht.2 c (by simp)) (by simpa [startsInWord] using hcs)
  · rintro rfl
    simp [standsAt, hcs]

theorem IsWord.startsInWord {w : List Char} (hw : IsWord w) : startsInWord w = true := by
  cases w with
  | nil => exact absurd rfl hw.1
  | cons c w => exact hw.2 c List.mem_cons_self

/-- What starts with a word character does not stand at a character outside words. -/
theorem standsAt_gap {t : List Char} (ht : startsInWord t = true) {c : Char}
    (hc : isWordChar c = false) (cs : List Char) : standsAt t (c :: cs) = false := by
  cases t with
  | nil => cases ht
  | cons d t =>
    have hd : d ≠ c := by
      rintro rfl
      have hword : isWordChar d = true := ht
      rw [hword] at hc
      cases hc
    simp [standsAt, List.isPrefixOf, hd]

theorem standsAt_nil {t : List Char} (ht : IsWord t) : standsAt t [] = false := by
  obtain ⟨hne, -⟩ := ht
  cases t with
  | nil => exact absurd rfl hne
  | cons d t => rfl

/-- What the search for the longest token at the start of a text has to find. -/
def IsLongest (names : List (List Char)) (cs : List Char) : Option (List Char) → Prop
  | none => ∀ t ∈ names, standsAt t cs = false
  | some w =>
    w ∈ names ∧ standsAt w cs = true ∧ ∀ t ∈ names, standsAt t cs = true → t.length ≤ w.length

/-- One more token is taken if it stands there and is longer than the best one so far. -/
theorem IsLongest.step {seen : List (List Char)} {cs : List Char} {best : Option (List Char)}
    (h : IsLongest seen cs best) (t : List Char) :
    IsLongest (seen ++ [t]) cs
      (if standsAt t cs && best.all (fun b => b.length < t.length) then some t else best) := by
  have hsplit : ∀ u ∈ seen ++ [t], u ∈ seen ∨ u = t := by simp
  split
  · next htake =>
    obtain ⟨hstands, hlonger⟩ := Bool.and_eq_true_iff.mp htake
    refine ⟨by simp, hstands, fun u hu hustands => ?_⟩
    rcases hsplit u hu with hu | rfl
    · cases best with
      | none => rw [h u hu] at hustands; cases hustands
      | some b =>
        have hub : u.length ≤ b.length := h.2.2 u hu hustands
        have hbt : b.length < t.length := by simpa using hlonger
        omega
    · exact Nat.le_refl _
  · next hkeep =>
    cases best with
    | none =>
      have hstands : standsAt t cs = false := by simpa using hkeep
      intro u hu
      rcases hsplit u hu with hu | rfl
      · exact h u hu
      · exact hstands
    | some b =>
      refine ⟨List.mem_append_left _ h.1, h.2.1, fun u hu hustands => ?_⟩
      rcases hsplit u hu with hu | rfl
      · exact h.2.2 u hu hustands
      · simpa [hustands] using hkeep

theorem isLongest_longestAt? (names : List (List Char)) (cs : List Char) :
    IsLongest names cs (longestAt? names cs) := by
  -- the search has always found the longest one of the tokens that it has seen
  have hrun : ∀ (rest seen : List (List Char)) (best : Option (List Char)),
      IsLongest seen cs best → IsLongest (seen ++ rest) cs (rest.foldl (fun best t =>
        if standsAt t cs && best.all (fun b => b.length < t.length) then some t
        else best) best) := by
    intro rest
    induction rest with
    | nil =>
      intro seen best h
      rw [List.append_nil]
      exact h
    | cons t rest ih =>
      intro seen best h
      have hnext := ih _ _ (h.step t)
      rw [List.append_assoc] at hnext
      exact hnext
  have hstart : IsLongest [] cs none := by
    intro t ht
    cases ht
  exact hrun names [] none hstart

/-- A token stands at the start of a text if it is written there and no word goes on behind it. -/
theorem standsAt_iff {t cs : List Char} :
    standsAt t cs = true ↔ ∃ rest, cs = t ++ rest ∧ startsInWord rest = false := by
  simp only [standsAt, Bool.and_eq_true, List.isPrefixOf_iff_prefix, Bool.not_eq_true']
  constructor
  · rintro ⟨⟨rest, rfl⟩, hend⟩
    rw [List.drop_left] at hend
    exact ⟨rest, rfl, hend⟩
  · rintro ⟨rest, rfl, hend⟩
    rw [List.drop_left]
    exact ⟨List.prefix_append t rest, hend⟩

theorem prefix_of_standsAt {t cs : List Char} (h : standsAt t cs = true) : t <+: cs := by
  rw [standsAt, Bool.and_eq_true] at h
  exact List.isPrefixOf_iff_prefix.mp h.1

/-- What is found is one of the tokens, and it stands there. -/
theorem longestAt?_mem {names : List (List Char)} {cs w : List Char}
    (h : longestAt? names cs = some w) :
    w ∈ names ∧ standsAt w cs = true := by
  have hlongest := isLongest_longestAt? names cs
  rw [h] at hlongest
  exact ⟨hlongest.1, hlongest.2.1⟩

/-- Two tokens of one length that stand at one place are the same. -/
theorem IsLongest.unique {names : List (List Char)} {cs : List Char} {a b : Option (List Char)}
    (ha : IsLongest names cs a) (hb : IsLongest names cs b) : a = b := by
  cases a with
  | none =>
    cases b with
    | none => rfl
    | some w => exact absurd hb.2.1 (by simp [ha w hb.1])
  | some v =>
    cases b with
    | none => exact absurd ha.2.1 (by simp [hb v ha.1])
    | some w =>
      have hlength : v.length = w.length :=
        Nat.le_antisymm (hb.2.2 v ha.1 ha.2.1) (ha.2.2 w hb.1 hb.2.1)
      have hlead : v <+: w :=
        List.prefix_of_prefix_length_le (prefix_of_standsAt ha.2.1) (prefix_of_standsAt hb.2.1)
          (Nat.le_of_eq hlength)
      rw [List.IsPrefix.eq_of_length hlead hlength]

/-- Where no token stands, no longest one is found. -/
theorem longestAt?_eq_none {names : List (List Char)} {cs : List Char}
    (h : ∀ t ∈ names, standsAt t cs = false) : longestAt? names cs = none :=
  @IsLongest.unique names cs _ none (isLongest_longestAt? names cs) h

/-- If the tokens that stand at the start of a text are all the same word, that word is found. -/
theorem longestAt?_eq_some {names : List (List Char)} {w cs : List Char} (hw : w ∈ names)
    (h : ∀ t ∈ names, standsAt t cs = true ↔ t = w) : longestAt? names cs = some w := by
  have hlongest : IsLongest names cs (some w) := by
    refine ⟨hw, (h w hw).mpr rfl, fun t ht hstands => ?_⟩
    rw [(h t ht).mp hstands]
  exact (isLongest_longestAt? names cs).unique hlongest

/-- It does not matter in which order the tokens are searched. -/
theorem longestAt?_congr {names others : List (List Char)} (h : ∀ t, t ∈ names ↔ t ∈ others)
    (cs : List Char) : longestAt? names cs = longestAt? others cs := by
  have hlongest : IsLongest others cs (longestAt? names cs) := by
    have hown := isLongest_longestAt? names cs
    revert hown
    cases longestAt? names cs with
    | none => exact fun hown t ht => hown t ((h t).mpr ht)
    | some w =>
      rintro ⟨hw, hstands, hmost⟩
      exact ⟨(h w).mp hw, hstands, fun t ht => hmost t ((h t).mpr ht)⟩
  exact hlongest.unique (isLongest_longestAt? others cs)

theorem segmentsFrom_congr {names others : List (List Char)} (h : ∀ t, t ∈ names ↔ t ∈ others)
    (inWord : Bool) (skip : Nat) (cs : List Char) :
    segmentsFrom names inWord skip cs = segmentsFrom others inWord skip cs := by
  induction cs generalizing inWord skip with
  | nil => rw [segmentsFrom, segmentsFrom, longestAt?_congr h]
  | cons c cs ih =>
    cases skip with
    | succ skip => rw [segmentsFrom, segmentsFrom, ih]
    | zero =>
      rw [segmentsFrom, segmentsFrom, longestAt?_congr h]
      simp only [ih]

/-- The characters of a token that is cut already are skipped. -/
theorem segmentsFrom_skip (names : List (List Char)) {w : List Char} (hw : w ≠ [])
    (inWord : Bool) (cs : List Char) :
    segmentsFrom names inWord w.length (w ++ cs) = segmentsFrom names (endsInWord w) 0 cs := by
  induction w generalizing inWord with
  | nil => exact absurd rfl hw
  | cons c w ih =>
    rw [List.length_cons, List.cons_append, segmentsFrom]
    cases w with
    | nil => rfl
    | cons d w =>
      show segmentsFrom names (isWordChar c) (d :: w).length (d :: w ++ cs) = _
      rw [ih (List.cons_ne_nil d w), ← endsInWord_append [c] (List.cons_ne_nil d w)]
      rfl

/-- The longest token at the start of a text is cut from it. -/
theorem segmentsFrom_token {names : List (List Char)} {t cs : List Char} (ht : t ≠ [])
    (hlongest : longestAt? names (t ++ cs) = some t) :
    segmentsFrom names false 0 (t ++ cs) = .token t :: segmentsFrom names (endsInWord t) 0 cs := by
  obtain ⟨c, t, rfl⟩ := List.exists_cons_of_ne_nil ht
  rw [List.cons_append] at hlongest
  rw [← segmentsFrom_skip names ht false cs, List.cons_append, List.length_cons, segmentsFrom,
    segmentsFrom]
  simp only [hlongest, Bool.false_eq_true, if_false]

/-- Inside a word nothing is cut. -/
theorem segmentsFrom_inWord (names : List (List Char)) {w : List Char}
    (hw : ∀ c ∈ w, isWordChar c = true) (cs : List Char) :
    segmentsFrom names true 0 (w ++ cs)
      = w.map Segment.plain ++ segmentsFrom names true 0 cs := by
  induction w with
  | nil => rfl
  | cons c w ih =>
    rw [List.cons_append, segmentsFrom, if_pos rfl, hw c List.mem_cons_self,
      ih fun d hd => hw d (List.mem_cons_of_mem _ hd), List.map_cons, List.cons_append]

/-- Behind a whole word a new word may start. -/
theorem segmentsFrom_true_of_boundary {names : List (List Char)} (hnames : ∀ t ∈ names, IsWord t)
    {cs : List Char} (hcs : startsInWord cs = false) :
    segmentsFrom names true 0 cs = segmentsFrom names false 0 cs := by
  cases cs with
  | nil =>
    rw [segmentsFrom, segmentsFrom, longestAt?_eq_none fun t ht => standsAt_nil (hnames t ht)]
    rfl
  | cons c cs =>
    have hnone := longestAt?_eq_none fun t ht =>
      standsAt_gap (hnames t ht).startsInWord (isWordChar_of_startsInWord hcs) cs
    rw [segmentsFrom, segmentsFrom, hnone]
    rfl

/-- A whole word is cut as a token if it is one, and left alone otherwise. -/
theorem segmentsFrom_word {names : List (List Char)} (hnames : ∀ t ∈ names, IsWord t)
    {w cs : List Char} (hw : IsWord w) (hcs : startsInWord cs = false) :
    segmentsFrom names false 0 (w ++ cs)
      = (if w ∈ names then [.token w] else w.map .plain) ++ segmentsFrom names false 0 cs := by
  have hstands : ∀ t ∈ names, standsAt t (w ++ cs) = true ↔ t = w := fun t ht =>
    standsAt_word_iff (hnames t ht) hw hcs
  by_cases hmem : w ∈ names
  · rw [if_pos hmem, segmentsFrom_token hw.1 (longestAt?_eq_some hmem hstands), hw.endsInWord,
      segmentsFrom_true_of_boundary hnames hcs]
    rfl
  · obtain ⟨c, w, rfl⟩ := List.exists_cons_of_ne_nil hw.1
    have hnone : longestAt? names ((c :: w) ++ cs) = none := by
      refine longestAt?_eq_none fun t ht => ?_
      rw [← Bool.not_eq_true, hstands t ht]
      rintro rfl
      exact hmem ht
    rw [if_neg hmem, List.cons_append, segmentsFrom]
    rw [List.cons_append] at hnone
    simp only [hnone, Bool.false_eq_true, if_false]
    rw [hw.2 c List.mem_cons_self,
      segmentsFrom_inWord names (fun d hd => hw.2 d (List.mem_cons_of_mem _ hd)),
      segmentsFrom_true_of_boundary hnames hcs]
    rfl

/-- A character outside words is left alone. -/
theorem segmentsFrom_gap {names : List (List Char)} (hnames : ∀ t ∈ names, startsInWord t = true)
    (inWord : Bool) {c : Char} (hc : isWordChar c = false) (cs : List Char) :
    segmentsFrom names inWord 0 (c :: cs) = .plain c :: segmentsFrom names false 0 cs := by
  have hnone := longestAt?_eq_none fun t ht => standsAt_gap (hnames t ht) hc cs
  rw [segmentsFrom]
  simp only [hnone, ite_self, hc]

/-! ## The token pass -/

/-- What the token pass writes for a piece: the factor of a word that is a token. -/
def Piece.replaced (tokens : Replacements) : Piece → List Char
  | .word w => (tokens.lookup w).getD w
  | .gap c => [c]

theorem lookup_eq_none_iff {tokens : Replacements} {w : List Char} :
    tokens.lookup w = none ↔ w ∉ tokens.map (·.1) := by
  rw [List.lookup_eq_none_iff]
  simp only [List.mem_map, not_exists, not_and, bne_iff_ne, ne_eq]
  exact ⟨fun h e he heq => h e he heq.symm, fun h e he heq => h e he heq.symm⟩

/-- **The token pass replaces whole words.** Of the pieces of a text exactly the words that equal a
token are replaced, whatever other tokens they start with, end with or hold. -/
theorem replaceTokens_eq_pieces {tokens : Replacements} (htokens : tokens.Words) (cs : List Char) :
    replaceTokens tokens cs = (pieces cs).flatMap (Piece.replaced tokens) := by
  have hnames : ∀ t ∈ tokens.map (·.1), IsWord t := by
    intro t ht
    obtain ⟨e, he, rfl⟩ := List.mem_map.mp ht
    exact htokens e he
  unfold replaceTokens segments
  induction cs using wordRuns with
  | hnil =>
    rw [segmentsFrom, longestAt?_eq_none fun t ht => standsAt_nil (hnames t ht)]
    rfl
  | hgap c cs hc ih =>
    rw [segmentsFrom_gap (fun t ht => (hnames t ht).startsInWord) false hc, pieces_gap hc,
      List.flatMap_cons, List.flatMap_cons, ih]
    rfl
  | hword w cs hw hcs ih =>
    rw [segmentsFrom_word hnames hw hcs, pieces_word hw hcs, List.flatMap_append,
      List.flatMap_cons, ih]
    congr 1
    by_cases hmem : w ∈ tokens.map (·.1)
    · rw [if_pos hmem, List.flatMap_singleton]
      show (tokens.lookup w).getD [] = (tokens.lookup w).getD w
      cases hlookup : tokens.lookup w with
      | none => exact absurd hmem (lookup_eq_none_iff.mp hlookup)
      | some f => rfl
    · rw [if_neg hmem, List.flatMap_map]
      show w.flatMap (fun c => [c]) = (tokens.lookup w).getD w
      rw [lookup_eq_none_iff.mpr hmem, List.flatMap_singleton']
      rfl

@[simp] theorem replaceTokens_nil (tokens : Replacements) (htokens : tokens.Words) :
    replaceTokens tokens [] = [] := by
  rw [replaceTokens_eq_pieces htokens]
  rfl

theorem replaceTokens_gap {tokens : Replacements} (htokens : tokens.Words) {c : Char}
    (hc : isWordChar c = false) (cs : List Char) :
    replaceTokens tokens (c :: cs) = c :: replaceTokens tokens cs := by
  rw [replaceTokens_eq_pieces htokens, replaceTokens_eq_pieces htokens, pieces_gap hc]
  rfl

theorem replaceTokens_append {tokens : Replacements} (htokens : tokens.Words) (a : List Char)
    {b : List Char} (hb : startsInWord b = false) :
    replaceTokens tokens (a ++ b) = replaceTokens tokens a ++ replaceTokens tokens b := by
  simp only [replaceTokens_eq_pieces htokens, pieces_append a hb, List.flatMap_append]

theorem replaceTokens_word {tokens : Replacements} (htokens : tokens.Words) {w : List Char}
    (hw : IsWord w) : replaceTokens tokens w = (tokens.lookup w).getD w := by
  rw [replaceTokens_eq_pieces htokens, pieces_eq_singleton hw, List.flatMap_singleton]
  rfl

/-- The token pass starts no word where none was. -/
theorem startsInWord_replaceTokens {tokens : Replacements} (htokens : tokens.Words)
    {cs : List Char} (hcs : startsInWord cs = false) :
    startsInWord (replaceTokens tokens cs) = false := by
  cases cs with
  | nil => rw [replaceTokens_nil tokens htokens]; rfl
  | cons c cs => rw [replaceTokens_gap htokens (isWordChar_of_startsInWord hcs)]; exact hcs

theorem head?_replaceTokens {tokens : Replacements} (htokens : tokens.Words) {b : List Char}
    (hb : startsInWord b = false) : (replaceTokens tokens b).head? = b.head? := by
  cases b with
  | nil => rw [replaceTokens_nil tokens htokens]
  | cons c b =>
    rw [replaceTokens_gap htokens (isWordChar_of_startsInWord hb)]
    rfl

/-- The last character of a text that ends outside words. -/
theorem exists_last_of_ends {a : List Char} (ha : endsInWord a = false) :
    a = [] ∨ ∃ front c, a = front ++ [c] ∧ isWordChar c = false := by
  rcases List.eq_nil_or_concat a with rfl | ⟨front, c, rfl⟩
  · exact Or.inl rfl
  · rw [List.concat_eq_append, endsInWord_append front (List.cons_ne_nil c [])] at ha
    exact Or.inr ⟨front, c, List.concat_eq_append, ha⟩

theorem getLast?_replaceTokens {tokens : Replacements} (htokens : tokens.Words) {a : List Char}
    (ha : endsInWord a = false) : (replaceTokens tokens a).getLast? = a.getLast? := by
  rcases exists_last_of_ends ha with rfl | ⟨front, c, rfl, hc⟩
  · rw [replaceTokens_nil tokens htokens]
  · have hends : startsInWord [c] = false := hc
    rw [replaceTokens_append htokens front hends, replaceTokens_gap htokens hc,
      replaceTokens_nil tokens htokens, List.getLast?_concat, List.getLast?_concat]

/-- A token that stands as a whole word is replaced between what becomes of the two sides. -/
theorem replaceTokens_around {tokens : Replacements} (htokens : tokens.Words) {a w b : List Char}
    (ha : endsInWord a = false) (hw : IsWord w) (hb : startsInWord b = false) :
    replaceTokens tokens (a ++ (w ++ b))
      = replaceTokens tokens a ++ ((tokens.lookup w).getD w ++ replaceTokens tokens b) := by
  simp only [replaceTokens_eq_pieces htokens, pieces_append_of_ends ha, pieces_word hw hb,
    List.flatMap_append, List.flatMap_cons]
  rfl

/-- A text none of whose words is a token stays as it is. -/
theorem replaceTokens_eq_self {tokens : Replacements} (htokens : tokens.Words) {cs : List Char}
    (h : ∀ w, Piece.word w ∈ pieces cs → tokens.lookup w = none) :
    replaceTokens tokens cs = cs := by
  induction cs using wordRuns with
  | hnil => exact replaceTokens_nil tokens htokens
  | hgap c cs hc ih =>
    rw [replaceTokens_gap htokens hc, ih]
    intro w hw
    exact h w (by rw [pieces_gap hc]; exact List.mem_cons_of_mem _ hw)
  | hword w cs hw hcs ih =>
    rw [pieces_word hw hcs] at h
    rw [replaceTokens_append htokens w hcs, replaceTokens_word htokens hw,
      h w List.mem_cons_self, ih fun v hv => h v (List.mem_cons_of_mem _ hv)]
    rfl

/-! ## The pass over names -/

/-- A text with its names written as zero: what is substituted where there are no tokens. -/
def zeroed (cs : List Char) : List Char :=
  zeroNames false (pieces cs)

theorem substitute_text (cs : List Char) (tokens : Replacements) :
    (substitute cs tokens).text = zeroed (replaceTokens tokens cs) := rfl

theorem substitute_text_nil (cs : List Char) : (substitute cs []).text = zeroed cs := by
  rw [substitute_text, replaceTokens_eq_self Replacements.words_nil fun _ _ => rfl]

/-- What is behind a character outside words does not depend on what is before it. -/
theorem zeroNames_append_pieces (afterPoint : Bool) (ps : List Piece) {cs : List Char}
    (hcs : startsInWord cs = false) :
    zeroNames afterPoint (ps ++ pieces cs) = zeroNames afterPoint ps ++ zeroed cs := by
  induction ps generalizing afterPoint with
  | nil =>
    cases cs with
    | nil => rfl
    | cons c cs =>
      rw [List.nil_append, zeroed, pieces_gap (isWordChar_of_startsInWord hcs)]
      rfl
  | cons p ps ih =>
    cases p with
    | word w => rw [List.cons_append, zeroNames, zeroNames, ih, List.append_assoc]
    | gap c => rw [List.cons_append, zeroNames, zeroNames, ih, List.cons_append]

theorem zeroed_append (a : List Char) {b : List Char} (hb : startsInWord b = false) :
    zeroed (a ++ b) = zeroed a ++ zeroed b := by
  rw [zeroed, pieces_append a hb, zeroNames_append_pieces false _ hb]
  rfl

theorem zeroed_gap {c : Char} (hc : isWordChar c = false) (hpoint : c ≠ '.') (cs : List Char) :
    zeroed (c :: cs) = c :: zeroed cs := by
  rw [zeroed, pieces_gap hc, zeroNames, beq_false_of_ne hpoint]
  rfl

/-- A name on its own is written as zero. -/
theorem zeroed_name {w : List Char} (hw : IsWord w) (hname : isName w = true) :
    zeroed w = ['0'] := by
  rw [zeroed, pieces_eq_singleton hw, zeroNames, if_pos (by simp [hname])]
  rfl

theorem namesIn_eq_nil {ps : List Piece} (h : ∀ w, Piece.word w ∈ ps → isName w = false)
    (afterPoint : Bool) : namesIn afterPoint ps = [] := by
  induction ps generalizing afterPoint with
  | nil => rfl
  | cons p ps ih =>
    have hrest := ih fun w hw => h w (List.mem_cons_of_mem _ hw)
    cases p with
    | word w =>
      rw [namesIn, h w List.mem_cons_self, Bool.false_and, if_neg (by simp)]
      exact hrest false
    | gap c => exact hrest _

theorem zeroNames_eq_self {cs : List Char} {afterPoint : Bool}
    (h : namesIn afterPoint (pieces cs) = []) : zeroNames afterPoint (pieces cs) = cs := by
  induction cs using wordRuns generalizing afterPoint with
  | hnil => rfl
  | hgap c cs hc ih =>
    rw [pieces_gap hc] at h ⊢
    rw [zeroNames, ih h]
  | hword w cs hw hcs ih =>
    rw [pieces_word hw hcs, namesIn] at h
    rw [pieces_word hw hcs, zeroNames]
    split at h
    · cases h
    · next hkept => rw [if_neg hkept, ih h]

/-- A text in which no name is found stays as it is. -/
theorem zeroed_eq_self_of_namesIn {cs : List Char} (h : namesIn false (pieces cs) = []) :
    zeroed cs = cs :=
  zeroNames_eq_self h

/-- A text without names stays as it is. -/
theorem zeroed_eq_self {cs : List Char}
    (h : ∀ w, Piece.word w ∈ pieces cs → isName w = false) : zeroed cs = cs :=
  zeroed_eq_self_of_namesIn (namesIn_eq_nil h false)

/-- What is before a text does not matter to it but for a point at its end. -/
theorem exists_zeroNames_append (afterPoint : Bool) (ps qs : List Piece) :
    ∃ behind, zeroNames afterPoint (ps ++ qs) = zeroNames afterPoint ps ++ zeroNames behind qs := by
  induction ps generalizing afterPoint with
  | nil => exact ⟨afterPoint, rfl⟩
  | cons p ps ih =>
    cases p with
    | word w =>
      obtain ⟨behind, h⟩ := ih false
      exact ⟨behind, by rw [List.cons_append, zeroNames, zeroNames, h, List.append_assoc]⟩
    | gap c =>
      obtain ⟨behind, h⟩ := ih (c == '.')
      exact ⟨behind, by rw [List.cons_append, zeroNames, zeroNames, h, List.cons_append]⟩

/-- A text without names that stands apart from other words is left alone, and so are they. -/
theorem zeroed_around {a f b : List Char} (ha : endsInWord a = false)
    (hf : ∀ w, Piece.word w ∈ pieces f → isName w = false) (hb : startsInWord b = false) :
    zeroed (a ++ (f ++ b)) = zeroed a ++ (f ++ zeroed b) := by
  obtain ⟨behind, hsplit⟩ := exists_zeroNames_append false (pieces a) (pieces (f ++ b))
  rw [zeroed, pieces_append_of_ends ha, hsplit, pieces_append f hb, zeroNames_append_pieces _ _ hb,
    zeroNames_eq_self (namesIn_eq_nil hf behind)]
  rfl

theorem head?_zeroed {b : List Char} (hb : startsInWord b = false) :
    (zeroed b).head? = b.head? := by
  cases b with
  | nil => rfl
  | cons c b =>
    rw [zeroed, pieces_gap (isWordChar_of_startsInWord hb)]
    rfl

theorem getLast?_zeroed {a : List Char} (ha : endsInWord a = false) :
    (zeroed a).getLast? = a.getLast? := by
  rcases exists_last_of_ends ha with rfl | ⟨front, c, rfl, hc⟩
  · rfl
  · have hlast : zeroed [c] = [c] := by
      rw [zeroed, pieces_gap hc]
      rfl
    have hends : startsInWord [c] = false := hc
    rw [zeroed_append front hends, hlast, List.getLast?_concat, List.getLast?_concat]

theorem startsInWord_eq_false_iff {cs : List Char} :
    startsInWord cs = false ↔ ∀ c, cs.head? = some c → isWordChar c = false := by
  cases cs with
  | nil => simp [startsInWord]
  | cons c cs => simp [startsInWord]

theorem endsInWord_eq_false_iff {cs : List Char} :
    endsInWord cs = false ↔ ∀ c, cs.getLast? = some c → isWordChar c = false := by
  rw [endsInWord]
  cases cs.getLast? <;> simp

theorem substitute_unknown_eq_nil_iff {cs : List Char} {tokens : Replacements} :
    (substitute cs tokens).unknown = [] ↔
      namesIn false (pieces (replaceTokens tokens cs)) = [] := by
  rw [substitute]
  cases namesIn false (pieces (replaceTokens tokens cs)) with
  | nil => simp
  | cons name names => simp [List.eraseDups_cons]

/-! ## Both passes together -/

/-- A substitution only looks up what stands for a word. -/
theorem substitute_congr {tokens others : Replacements}
    (h : ∀ w, tokens.lookup w = others.lookup w) (cs : List Char) :
    substitute cs tokens = substitute cs others := by
  have hnames : ∀ t, t ∈ tokens.map (·.1) ↔ t ∈ others.map (·.1) := by
    intro t
    rw [← not_iff_not, ← lookup_eq_none_iff, ← lookup_eq_none_iff, h]
  have hrender : Segment.render tokens = Segment.render others := by
    funext s
    cases s with
    | token name => rw [Segment.render, Segment.render, h]
    | plain c => rfl
  have hreplace : replaceTokens tokens cs = replaceTokens others cs := by
    rw [replaceTokens, replaceTokens, segments, segments, segmentsFrom_congr hnames, hrender]
  rw [substitute, substitute, hreplace]

theorem substitute_gap {tokens : Replacements} (htokens : tokens.Words) {c : Char}
    (hc : isWordChar c = false) (hpoint : c ≠ '.') (cs : List Char) :
    (substitute (c :: cs) tokens).text = c :: (substitute cs tokens).text := by
  rw [substitute_text, substitute_text, replaceTokens_gap htokens hc, zeroed_gap hc hpoint]

theorem substitute_append {tokens : Replacements} (htokens : tokens.Words) (a : List Char)
    {b : List Char} (hb : startsInWord b = false) :
    (substitute (a ++ b) tokens).text
      = (substitute a tokens).text ++ (substitute b tokens).text := by
  rw [substitute_text, substitute_text, substitute_text, replaceTokens_append htokens a hb,
    zeroed_append _ (startsInWord_replaceTokens htokens hb)]

theorem head?_substitute {tokens : Replacements} (htokens : tokens.Words) {b : List Char}
    (hb : startsInWord b = false) : (substitute b tokens).text.head? = b.head? := by
  rw [substitute_text, head?_zeroed (startsInWord_replaceTokens htokens hb),
    head?_replaceTokens htokens hb]

theorem endsInWord_replaceTokens {tokens : Replacements} (htokens : tokens.Words) {a : List Char}
    (ha : endsInWord a = false) : endsInWord (replaceTokens tokens a) = false := by
  rw [endsInWord, getLast?_replaceTokens htokens ha]
  exact ha

theorem getLast?_substitute {tokens : Replacements} (htokens : tokens.Words) {a : List Char}
    (ha : endsInWord a = false) : (substitute a tokens).text.getLast? = a.getLast? := by
  rw [substitute_text, getLast?_zeroed (endsInWord_replaceTokens htokens ha),
    getLast?_replaceTokens htokens ha]

end Tariff.Expression

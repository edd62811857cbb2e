import Tariff.Proofs.Expression.Filling
import Tariff.Proofs.Expression.Sentences
import Tariff.Proofs.Expression.WholeWords

/-!
# Numbers that stand for tokens

A token is found as a whole word, and a number is as long as digits and a point make it. The two do
not fit at a point: it belongs to no word, but it does belong to numbers. So a number that stands
for a token ends where its token did, except beside a point.

* `apart_of_scan` — what is scanned lies on one side of a place where no number goes on;
* `writtenOut` — the text that is left of an expression, piece by piece;
* `accepted_of_varies` — texts whose tokens stand for other numbers are accepted together;
* `numbers_stay_apart` — the main result, and `numbers_fuse_at_points` — why it excludes points.
-/

namespace Tariff.Expression

open Text Tariff.Expression.Parser

/-! ## Tokens as whole words -/

/-- A word stands as a whole in a text, between `before` and `after`. -/
structure Occurs (w before after cs : List Char) : Prop where
  text : cs = before ++ (w ++ after)
  left : endsInWord before = false
  right : startsInWord after = false

/-- A piece of a text that is a word stands as a whole in it. -/
theorem occurs_of_pieces {cs w : List Char} {ps qs : List Piece}
    (h : pieces cs = ps ++ .word w :: qs) :
    Occurs w (ps.flatMap Piece.text) (qs.flatMap Piece.text) cs := by
  obtain ⟨htext, hproper, hmaximal⟩ := isCut_pieces cs
  rw [h] at htext hproper hmaximal
  have hbehind : (.word w :: qs : List Piece).IsChain (¬ ·.Torn ·) := hmaximal.right_of_append
  refine ⟨?_, ?_, startsInWord_of_not_torn hbehind fun q hq => hproper q (by simp [hq])⟩
  · rw [← htext, List.flatMap_append, List.flatMap_cons]
    rfl
  · rcases List.eq_nil_or_concat ps with rfl | ⟨front, p, rfl⟩
    · rfl
    · rw [List.concat_eq_append] at hmaximal hproper ⊢
      have hnext : ¬ p.Torn (.word w) := by
        rw [List.append_assoc] at hmaximal
        exact (List.isChain_cons_cons.mp hmaximal.right_of_append).1
      cases p with
      | word v => exact absurd trivial hnext
      | gap c =>
        have hc : isWordChar c = false := hproper (.gap c) (by simp)
        rw [List.flatMap_append, endsInWord_append _ (by simp [Piece.text])]
        exact hc

variable {tokens others : OrderedMap Contribution} {cs : List Char}

/-- Every token is a name. -/
abbrev Named (tokens : OrderedMap Contribution) : Prop :=
  ∀ e ∈ tokens, IsIdentifier e.1

/-- Every contribution is a finite number. -/
abbrev Numeric (tokens : OrderedMap Contribution) : Prop :=
  ∀ e ∈ tokens, ∃ n : Number, e.2 = .number n ∧ n.isFinite = true

theorem Numeric.isNumberFactor (h : Numeric tokens) {id : String} {c : Contribution}
    (hid : tokens.find? id = some c) : IsNumberFactor c.factor := by
  obtain ⟨n, rfl, hfinite⟩ := h _ (OrderedMap.mem_of_find? hid)
  exact Number.factor_cases hfinite

/-- A number stands between what becomes of the text before its token and behind it. -/
theorem substitute_around (hnames : Named tokens) {name : String} {before after : List Char}
    (hoccurs : Occurs name.toList before after cs) {c : Contribution}
    (hname : tokens.find? name = some c) (hfactor : IsNumberFactor c.factor) :
    (substitute cs (replacements tokens)).text
      = (substitute before (replacements tokens)).text
        ++ (c.factor ++ (substitute after (replacements tokens)).text) := by
  have hwords := (names_replacements hnames).words
  have hword : IsWord name.toList := (hnames _ (OrderedMap.mem_of_find? hname)).1
  have hlookup : (replacements tokens).lookup name.toList = some c.factor := by
    rw [lookup_replacements, hname]
    rfl
  rw [substitute_text, hoccurs.text, replaceTokens_around hwords hoccurs.left hword hoccurs.right,
    hlookup]
  exact zeroed_around (endsInWord_replaceTokens hwords hoccurs.left) (fun _ => hfactor.noName)
    (startsInWord_replaceTokens hwords hoccurs.right)

/-! ## Where lexemes lie -/

/-- A lexeme lies before a stretch of a text, within it or behind it. -/
def Lexeme.Apart (l : Lexeme) (start stop : Nat) : Prop :=
  l.stop ≤ start ∨ (start ≤ l.place ∧ l.stop ≤ stop) ∨ stop ≤ l.place

/-- A text that is cut at its end: no number goes on from it, or it is a number that ends there. -/
def Stops (f b : List Char) : Prop :=
  Parted f b ∨ IsNumber f ∧ NumberEnds f b

/-- **What is scanned lies apart** from a text that no number goes on into or from. -/
theorem apart_of_scan {a f b : List Char} (hbefore : Parted a (f ++ b)) (hafter : Stops f b)
    {lexemes : List Lexeme} (h : Lexeme.scan (a ++ (f ++ b)) = .ok lexemes) :
    ∀ l ∈ lexemes, l.Apart a.length (a.length + f.length) := by
  have hscan : Lexeme.scanFrom 0 0 (a ++ (f ++ b)) = .ok lexemes := by
    unfold Lexeme.scan at h
    split at h
    · cases h
    · exact h
  obtain ⟨s, rest, rfl, hs, hrest⟩ := exists_of_scanFrom_append hbefore hscan
  rw [Nat.zero_add] at hrest
  -- behind the first part comes what is scanned in the stretch, then what is scanned behind it
  obtain ⟨m, t, rfl, hm, ht⟩ : ∃ m t, rest = m ++ t
      ∧ (∀ l ∈ m, a.length ≤ l.place ∧ l.stop ≤ a.length + f.length)
      ∧ Lexeme.scanFrom (a.length + f.length) 0 b = .ok t := by
    rcases hafter with hparted | ⟨hnumber, hend⟩
    · obtain ⟨m, t, rfl, hm, ht⟩ := exists_of_scanFrom_append hparted hrest
      exact ⟨m, t, rfl, within_scanFrom hm, ht⟩
    · rw [scanFrom_number _ hnumber hend] at hrest
      obtain ⟨t, ht, rfl⟩ := map_eq_ok_iff.mp hrest
      refine ⟨[⟨.number f, a.length⟩], t, rfl, fun l hl => ?_, ht⟩
      obtain rfl := List.mem_singleton.mp hl
      exact ⟨Nat.le_refl _, Nat.le_refl _⟩
  intro l hl
  rcases List.mem_append.mp hl with hl | hl
  · have hwithin := within_scanFrom hs l hl
    exact Or.inl (by omega)
  · rcases List.mem_append.mp hl with hl | hl
    · exact Or.inr (Or.inl (hm l hl))
    · exact Or.inr (Or.inr (within_scanFrom ht l hl).1)

/-- A number that stands for a token is cut where its token was, if it is negative, or if no point
is before the token and none behind it that the number could take. -/
theorem apart_of_occurs (hnames : Named tokens) {name : String} {before after : List Char}
    {n : Number}
    (hoccurs : Occurs name.toList before after cs)
    (hname : tokens.find? name = some (.number n)) (hfinite : n.isFinite = true)
    (hpoints : n.isBelow .zero = true
      ∨ before.getLast? ≠ some '.' ∧ (after.head? = some '.' → '.' ∈ n.factor))
    {lexemes : List Lexeme}
    (h : Lexeme.scan (substitute cs (replacements tokens)).text = .ok lexemes) :
    let start := (substitute before (replacements tokens)).text.length
    ∀ l ∈ lexemes, l.Apart start (start + n.factor.length) := by
  have hwords := (names_replacements hnames).words
  rw [substitute_around hnames hoccurs hname (Number.factor_cases hfinite)] at h
  obtain ⟨ds, hds, hfactor⟩ := Number.factor_eq hfinite
  refine apart_of_scan ?_ ?_ h
  · show Parted _ (n.factor ++ _)
    rw [hfactor]
    cases hneg : n.isBelow .zero with
    | true => exact parted_before_sign _ rfl _
    | false =>
      obtain ⟨hpoint, -⟩ := hpoints.resolve_left (by simp [hneg])
      have hleft := endsInWord_eq_false_iff.mp hoccurs.left
      rw [← getLast?_substitute hwords hoccurs.left] at hpoint hleft
      exact parted_of_last hleft hpoint _
  · show Stops n.factor _
    cases hneg : n.isBelow .zero with
    | true =>
      rw [hfactor, hneg]
      exact Or.inl (parted_behind_sign ('(' :: '-' :: ds) rfl _)
    | false =>
      obtain ⟨-, hpoint⟩ := hpoints.resolve_left (by simp [hneg])
      have hnumber : IsNumber n.factor := by
        rw [hfactor, hneg]
        exact hds
      refine Or.inr ⟨hnumber, fun d hd => ?_⟩
      rw [head?_substitute hwords hoccurs.right] at hd
      have hright := startsInWord_eq_false_iff.mp hoccurs.right d hd
      refine ⟨?_, fun hdot => hpoint (hdot ▸ hd)⟩
      -- a digit would be a character of words
      rw [← Bool.not_eq_true, isAsciiDigit_eq]
      intro hdigit
      simp [isWordChar, Char.isAlphanum, hdigit] at hright

/-! ## The text that is left, piece by piece -/

/-- What is left of a word: the factor of a token, a zero for a name without a point before it, and
any other word itself. -/
def wordLeft (tokens : OrderedMap Contribution) (afterPoint : Bool) (w : List Char) : List Char :=
  match tokens.find? (String.ofList w) with
  | some c => c.factor
  | none => if isName w && !afterPoint then ['0'] else w

/-- What is left of the pieces of a text. -/
def writtenOut (tokens : OrderedMap Contribution) (afterPoint : Bool) : List Piece → List Char
  | [] => []
  | .word w :: ps => wordLeft tokens afterPoint w ++ writtenOut tokens false ps
  | .gap c :: ps => c :: writtenOut tokens (c == '.') ps

/-- If every contribution is a number, nothing of it is written as zero. -/
theorem substitute_eq_writtenOut (hnames : Named tokens) (hnumbers : Numeric tokens)
    (cs : List Char) :
    (substitute cs (replacements tokens)).text = writtenOut tokens false (pieces cs) := by
  have hwords := (names_replacements hnames).words
  -- behind a point a name stays, so the flag is generalized
  have hflag : ∀ afterPoint, zeroNames afterPoint (pieces (replaceTokens (replacements tokens) cs))
      = writtenOut tokens afterPoint (pieces cs) := by
    induction cs using wordRuns with
    | hnil =>
      intro afterPoint
      rw [replaceTokens_nil _ hwords]
      rfl
    | hgap c cs hc ih =>
      intro afterPoint
      rw [replaceTokens_gap hwords hc, pieces_gap hc, pieces_gap hc, zeroNames, writtenOut, ih]
    | hword w cs hw hcs ih =>
      intro afterPoint
      have hrest := startsInWord_replaceTokens hwords hcs
      rw [replaceTokens_append hwords w hcs, replaceTokens_word hwords hw, lookup_word,
        pieces_append _ hrest, zeroNames_append_pieces _ _ hrest, pieces_word hw hcs, writtenOut,
        ← ih false, wordLeft]
      cases hfind : tokens.find? (String.ofList w) with
      | none =>
        show zeroNames afterPoint (pieces w) ++ _ = _
        rw [pieces_eq_singleton hw, zeroNames, zeroNames, List.append_nil]
        rfl
      | some c =>
        have hfactor := hnumbers.isNumberFactor hfind
        show zeroNames afterPoint (pieces c.factor) ++ _ = _
        rw [zeroNames_eq_self (namesIn_eq_nil (fun _ => hfactor.noName) afterPoint)]
        rfl
  exact hflag false

/-! ## Other numbers in the places of tokens -/

/-- A symbol without what number it is. -/
def Symbol.shape : Symbol → Symbol
  | .number _ => .number []
  | s => s

theorem Symbol.eq_of_shape_eq {s t : Symbol} (ht : ∀ ds, t ≠ .number ds) (h : s.shape = t.shape) :
    s = t := by
  cases t with
  | number ds => exact absurd rfl (ht ds)
  | operator op => cases s <;> cases h; rfl
  | opening => cases s <;> cases h; rfl
  | closing => cases s <;> cases h; rfl

/-- Rows that differ in what numbers they hold only. -/
def AlikeRows (row other : List Symbol) : Prop :=
  other.map Symbol.shape = row.map Symbol.shape

theorem AlikeRows.refl (row : List Symbol) : AlikeRows row row := rfl

theorem AlikeRows.append {a a' b b' : List Symbol} (ha : AlikeRows a a') (hb : AlikeRows b b') :
    AlikeRows (a ++ b) (a' ++ b') := by
  rw [AlikeRows, List.map_append, List.map_append, ha, hb]

theorem AlikeRows.number (ds es : List Char) : AlikeRows [.number ds] [.number es] := rfl

/-- A symbol that is no number stands at its place in every row that is alike. -/
theorem AlikeRows.of_append_cons {a b other : List Symbol} {s : Symbol}
    (hs : ∀ ds, s ≠ .number ds) (h : AlikeRows (a ++ s :: b) other) :
    ∃ a' b', other = a' ++ s :: b' ∧ AlikeRows a a' ∧ AlikeRows b b' := by
  rw [AlikeRows, List.map_append, List.map_cons] at h
  obtain ⟨a', rest, rfl, ha, hrest⟩ := List.map_eq_append_iff.mp h
  obtain ⟨s', b', rfl, hshape, hb⟩ := List.map_eq_cons_iff.mp hrest
  obtain rfl := Symbol.eq_of_shape_eq hs hshape
  exact ⟨a', b', rfl, ha, hb⟩

/-- **Rows that differ in numbers only have trees of the same nesting.** -/
theorem Derives.alike {level : Level} {t : Tree} {row other : List Symbol}
    (h : Derives level t row) (halike : AlikeRows row other) :
    ∃ u, Derives level u other ∧ u.nesting = t.nesting := by
  -- every rule but the first one has its own symbol, which cuts the other row in the same place
  induction h generalizing other with
  | number cs =>
    obtain ⟨s, rest, rfl, hs, hrest⟩ := List.map_eq_cons_iff.mp halike
    obtain rfl := List.map_eq_nil_iff.mp hrest
    cases s with
    | number ds => exact ⟨_, .number ds, rfl⟩
    | operator op => cases hs
    | opening => cases hs
    | closing => cases hs
  | @negate t row _ ih =>
    obtain ⟨a, b, rfl, ha, hb⟩ := AlikeRows.of_append_cons (a := []) (by simp) halike
    obtain rfl := List.map_eq_nil_iff.mp ha
    obtain ⟨u, hu, hnesting⟩ := ih hb
    exact ⟨_, .negate hu, congrArg (· + 1) hnesting⟩
  | @group t row _ ih =>
    obtain ⟨a, rest, rfl, ha, hrest⟩ := AlikeRows.of_append_cons (a := []) (by simp) halike
    obtain rfl := List.map_eq_nil_iff.mp ha
    obtain ⟨inner, b, rfl, hinner, hb⟩ := hrest.of_append_cons (by simp)
    obtain rfl := List.map_eq_nil_iff.mp hb
    obtain ⟨u, hu, hnesting⟩ := ih hinner
    exact ⟨_, .group hu, congrArg (· + 1) hnesting⟩
  | ofFactor _ ih =>
    obtain ⟨u, hu, hnesting⟩ := ih halike
    exact ⟨u, .ofFactor hu, hnesting⟩
  | ofProduct _ ih =>
    obtain ⟨u, hu, hnesting⟩ := ih halike
    exact ⟨u, .ofProduct hu, hnesting⟩
  | product hop _ _ ihl ihr =>
    obtain ⟨a, b, rfl, ha, hb⟩ := halike.of_append_cons (by simp)
    obtain ⟨l, hl, hleft⟩ := ihl ha
    obtain ⟨r, hr, hright⟩ := ihr hb
    refine ⟨_, .product hop hl hr, ?_⟩
    rw [Tree.nesting, Tree.nesting, hleft, hright]
  | sum hop _ _ ihl ihr =>
    obtain ⟨a, b, rfl, ha, hb⟩ := halike.of_append_cons (by simp)
    obtain ⟨l, hl, hleft⟩ := ihl ha
    obtain ⟨r, hr, hright⟩ := ihr hb
    refine ⟨_, .sum hop hl hr, ?_⟩
    rw [Tree.nesting, Tree.nesting, hleft, hright]

/-! ## Stretches that hold other numbers -/

/-- Whether a word stands for another number under other contributions. -/
def differs (tokens others : OrderedMap Contribution) (w : List Char) : Bool :=
  others.find? (String.ofList w) != tokens.find? (String.ofList w)

theorem differs_iff {w : List Char} : differs tokens others w = true
    ↔ others.find? (String.ofList w) ≠ tokens.find? (String.ofList w) := by
  rw [differs, bne_iff_ne]

theorem differs_eq_false_iff {w : List Char} : differs tokens others w = false
    ↔ others.find? (String.ofList w) = tokens.find? (String.ofList w) := by
  rw [differs, bne_eq_false_iff_eq]

/-- The pieces of a text with the words that differ left to be filled in. -/
def openSegments (tokens others : OrderedMap Contribution) (afterPoint : Bool) :
    List Piece → List Segment
  | [] => []
  | .word w :: ps =>
    (if differs tokens others w then [.token w] else (wordLeft tokens afterPoint w).map .plain)
      ++ openSegments tokens others false ps
  | .gap c :: ps => .plain c :: openSegments tokens others (c == '.') ps

theorem rendered_plain (rs : Replacements) (cs : List Char) :
    rendered rs (cs.map .plain) = cs := by
  rw [rendered, List.flatMap_map]
  exact List.flatMap_singleton' cs

theorem rendered_append (rs : Replacements) (a b : List Segment) :
    rendered rs (a ++ b) = rendered rs a ++ rendered rs b :=
  List.flatMap_append

/-- Filled in with either contributions, the stretches are what these leave of the text. -/
theorem rendered_openSegments {chosen : OrderedMap Contribution}
    (hchosen : ∀ w, differs tokens others w = false →
      chosen.find? (String.ofList w) = tokens.find? (String.ofList w))
    (hfound : ∀ w, differs tokens others w = true →
      (chosen.find? (String.ofList w)).isSome = true)
    (afterPoint : Bool) (ps : List Piece) :
    rendered (replacements chosen) (openSegments tokens others afterPoint ps)
      = writtenOut chosen afterPoint ps := by
  induction ps generalizing afterPoint with
  | nil => rfl
  | cons p ps ih =>
    cases p with
    | gap c =>
      show c :: rendered _ _ = c :: _
      rw [ih]
    | word w =>
      rw [openSegments, rendered_append, ih, writtenOut]
      congr 1
      cases hdiffers : differs tokens others w with
      | true =>
        obtain ⟨c, hc⟩ := Option.isSome_iff_exists.mp (hfound w hdiffers)
        have hfactor : (replacements chosen).lookup w = some c.factor := by
          rw [lookup_word, hc]
          rfl
        have hleft : wordLeft chosen afterPoint w = c.factor := by simp only [wordLeft, hc]
        rw [if_pos rfl, hleft, rendered, List.flatMap_singleton, Segment.render, hfactor]
        rfl
      | false =>
        rw [if_neg (by simp), rendered_plain, wordLeft, wordLeft, hchosen w hdiffers]

theorem differs_of_mem_openSegments {afterPoint : Bool} {ps : List Piece} {name : List Char}
    (h : .token name ∈ openSegments tokens others afterPoint ps) :
    differs tokens others name = true := by
  induction ps generalizing afterPoint with
  | nil => cases h
  | cons p ps ih =>
    cases p with
    | gap c => exact ih (by simpa [openSegments] using h)
    | word w =>
      rw [openSegments] at h
      rcases List.mem_append.mp h with hword | hrest
      · cases hdiffers : differs tokens others w with
        | true =>
          rw [hdiffers, if_pos rfl] at hword
          obtain rfl : name = w := by simpa using hword
          exact hdiffers
        | false =>
          rw [hdiffers, if_neg (by simp)] at hword
          simp at hword
      · exact ih hrest

/-- A word that differs beside a point. -/
def Piece.Touches (tokens others : OrderedMap Contribution) : Piece → Piece → Prop
  | .word w, .gap c => differs tokens others w = true ∧ c = '.'
  | .gap c, .word w => differs tokens others w = true ∧ c = '.'
  | _, _ => False

/-- The first stretch is left open only if the first piece is a word that differs. -/
theorem head?_openSegments {afterPoint : Bool} {ps : List Piece} {name : List Char}
    (hmaximal : ps.IsChain (¬ ·.Torn ·))
    (h : (openSegments tokens others afterPoint ps).head? = some (.token name)) :
    differs tokens others name = true ∧ ∃ rest, ps = .word name :: rest := by
  cases ps with
  | nil => cases h
  | cons p ps =>
    cases p with
    | gap c => cases h
    | word w =>
      rw [openSegments] at h
      cases hdiffers : differs tokens others w with
      | true =>
        rw [hdiffers, if_pos rfl] at h
        cases h
        exact ⟨hdiffers, ps, rfl⟩
      | false =>
        rw [hdiffers, if_neg (by simp)] at h
        cases hleft : wordLeft tokens afterPoint w with
        | cons c cs => rw [hleft] at h; cases h
        | nil =>
          -- nothing is left of the word, and no word follows it
          rw [hleft] at h
          cases ps with
          | nil => cases h
          | cons q ps =>
            cases q with
            | word v => exact absurd trivial (List.isChain_cons_cons.mp hmaximal).1
            | gap c => cases h

theorem numberStops_plain (cs : List Char) : (cs.map .plain).IsChain Segment.NumberStops := by
  induction cs with
  | nil => exact .nil
  | cons c cs ih =>
    refine ih.cons fun next hnext => ?_
    cases cs with
    | nil => cases hnext
    | cons d cs =>
      cases hnext
      trivial

/-- **Numbers stop at the stretches that are left open**, if these are not beside points. -/
theorem numberStops_openSegments {ps : List Piece} (hproper : ∀ p ∈ ps, p.Proper)
    (hmaximal : ps.IsChain (¬ ·.Torn ·))
    (hpoints : ps.IsChain fun a b => ¬ Piece.Touches tokens others a b) (afterPoint : Bool) :
    (openSegments tokens others afterPoint ps).IsChain Segment.NumberStops := by
  induction ps generalizing afterPoint with
  | nil => exact .nil
  | cons p ps ih =>
    have hrest := ih (fun q hq => hproper q (List.mem_cons_of_mem _ hq))
      (List.isChain_cons.mp hmaximal).2 (List.isChain_cons.mp hpoints).2
    cases p with
    | gap c =>
      refine (hrest _).cons fun next hnext => ?_
      cases next with
      | plain d => trivial
      | token name =>
        obtain ⟨hdiffers, rest, rfl⟩ := head?_openSegments (List.isChain_cons.mp hmaximal).2 hnext
        have hc : isWordChar c = false := hproper (.gap c) List.mem_cons_self
        have hpoint : c ≠ '.' := fun hc =>
          (List.isChain_cons_cons.mp hpoints).1 ⟨hdiffers, hc⟩
        exact not_isNumberChar_of_outside hc hpoint
    | word w =>
      rw [openSegments]
      cases hdiffers : differs tokens others w with
      | true =>
        rw [if_pos rfl]
        refine (hrest _).cons fun next hnext => ?_
        cases ps with
        | nil => cases hnext
        | cons q ps =>
          cases q with
          | word v => exact absurd trivial (List.isChain_cons_cons.mp hmaximal).1
          | gap c =>
            cases hnext
            have hc : isWordChar c = false := hproper (.gap c) (by simp)
            have hpoint : c ≠ '.' := fun hc =>
              (List.isChain_cons_cons.mp hpoints).1 ⟨hdiffers, hc⟩
            exact not_isNumberChar_of_outside hc hpoint
      | false =>
        -- behind the word stands a gap, so no stretch is open there
        rw [if_neg (by simp), List.isChain_append]
        refine ⟨numberStops_plain _, hrest _, fun last hlast next hnext => ?_⟩
        obtain ⟨d, -, rfl⟩ := List.mem_map.mp (List.mem_of_getLast? hlast)
        cases next with
        | plain e => trivial
        | token name =>
          obtain ⟨-, rest, rfl⟩ := head?_openSegments (List.isChain_cons.mp hmaximal).2 hnext
          exact absurd trivial (List.isChain_cons_cons.mp hmaximal).1

/-- Contributions that differ in numbers only, none of them negative, and only for tokens that stand
nowhere beside a point. -/
structure VariesIn (cs : List Char) (tokens others : OrderedMap Contribution) : Prop where
  numbers : ∀ name, others.find? name ≠ tokens.find? name → ∃ a b : Number,
    tokens.find? name = some (.number a) ∧ others.find? name = some (.number b)
      ∧ a.isBelow .zero = false ∧ b.isBelow .zero = false
  clear : ∀ name, others.find? name ≠ tokens.find? name →
    ∀ before after, Occurs name.toList before after cs →
      before.getLast? ≠ some '.' ∧ after.head? ≠ some '.'

theorem VariesIn.symm (h : VariesIn cs tokens others) : VariesIn cs others tokens := by
  refine ⟨fun name hname => ?_, fun name hname => h.clear name (Ne.symm hname)⟩
  obtain ⟨a, b, ha, hb, hapos, hbpos⟩ := h.numbers name (Ne.symm hname)
  exact ⟨b, a, hb, ha, hbpos, hapos⟩

/-- No word that differs is beside a point. -/
theorem VariesIn.not_touches (h : VariesIn cs tokens others) :
    (pieces cs).IsChain fun a b => ¬ Piece.Touches tokens others a b := by
  rw [List.isChain_iff_forall_rel_of_append_cons_cons]
  intro a b front back hsplit
  cases a with
  | word w =>
    cases b with
    | word v => exact id
    | gap c =>
      rintro ⟨hdiffers, rfl⟩
      have hoccurs := occurs_of_pieces hsplit
      rw [← String.toList_ofList (l := w)] at hoccurs
      exact (h.clear _ (differs_iff.mp hdiffers) _ _ hoccurs).2 rfl
  | gap c =>
    cases b with
    | gap d => exact id
    | word w =>
      rintro ⟨hdiffers, rfl⟩
      have hassoc : pieces cs = (front ++ [.gap '.']) ++ .word w :: back := by
        rw [hsplit, List.append_assoc]
        rfl
      have hoccurs := occurs_of_pieces hassoc
      rw [← String.toList_ofList (l := w)] at hoccurs
      refine (h.clear _ (differs_iff.mp hdiffers) _ _ hoccurs).1 ?_
      rw [List.flatMap_append]
      exact List.getLast?_concat

/-- What a non-negative number leaves of its token is a number. -/
theorem Numeric.spells_number (hnumbers : Numeric tokens) {name : String} {n : Number}
    (hname : tokens.find? name = some (.number n)) (hpos : n.isBelow .zero = false) :
    ∃ ds, Spells (Segment.render (replacements tokens) (.token name.toList)) [.number ds] := by
  obtain ⟨_, heq, hfinite⟩ := hnumbers _ (OrderedMap.mem_of_find? hname)
  cases heq
  obtain ⟨ds, hds, hfactor⟩ := Number.factor_eq hfinite
  rw [hpos] at hfactor
  have hrender : Segment.render (replacements tokens) (.token name.toList) = ds := by
    rw [Segment.render, lookup_replacements, hname]
    exact hfactor
  rw [hrender]
  exact ⟨ds, .of_isNumber hds⟩

/-- What both choices leave of a text is one row of stretches, filled in twice. -/
theorem VariesIn.rendered_eq (h : VariesIn cs tokens others) (ps : List Piece) :
    rendered (replacements tokens) (openSegments tokens others false ps)
        = writtenOut tokens false ps
      ∧ rendered (replacements others) (openSegments tokens others false ps)
        = writtenOut others false ps := by
  have hfound : ∀ w, differs tokens others w = true →
      (tokens.find? (String.ofList w)).isSome = true
        ∧ (others.find? (String.ofList w)).isSome = true := by
    intro w hw
    obtain ⟨a, b, ha, hb, -, -⟩ := h.numbers _ (differs_iff.mp hw)
    exact ⟨by rw [ha]; rfl, by rw [hb]; rfl⟩
  constructor
  · exact rendered_openSegments (fun _ _ => rfl) (fun w hw => (hfound w hw).1) false ps
  · exact rendered_openSegments (fun w hw => differs_eq_false_iff.mp hw)
      (fun w hw => (hfound w hw).2) false ps

/-- Each stretch that is left open is one number under both choices. -/
theorem VariesIn.spells_open (h : VariesIn cs tokens others) (hnumbers : Numeric tokens)
    (hnumbers' : Numeric others) {name : List Char}
    (hmem : .token name ∈ openSegments tokens others false (pieces cs)) :
    ∃ x y, Spells (Segment.render (replacements tokens) (.token name)) x
      ∧ Spells (Segment.render (replacements others) (.token name)) y ∧ AlikeRows x y := by
  have hdiffers := differs_of_mem_openSegments hmem
  obtain ⟨a, b, ha, hb, hapos, hbpos⟩ := h.numbers _ (differs_iff.mp hdiffers)
  obtain ⟨ds, hds⟩ := hnumbers.spells_number ha hapos
  obtain ⟨es, hes⟩ := hnumbers'.spells_number hb hbpos
  rw [String.toList_ofList] at hds hes
  exact ⟨_, _, hds, hes, .number ds es⟩

/-- **If an expression is accepted with some numbers, then also with others.** -/
theorem accepted_of_varies (hnames : Named tokens) (hnumbers : Numeric tokens)
    (hnames' : Named others) (hnumbers' : Numeric others) (h : VariesIn cs tokens others)
    {limit : Nat} {t : Tree}
    (ht : Tree.ofText (substitute cs (replacements tokens)).text limit = .ok t) :
    ∃ u, Tree.ofText (substitute cs (replacements others)).text limit = .ok u := by
  have hcut := isCut_pieces cs
  have hstops := numberStops_openSegments hcut.proper hcut.maximal h.not_touches false
  obtain ⟨hown, hother⟩ := h.rendered_eq (pieces cs)
  obtain ⟨row, hspells, hderives, hlimit⟩ := ofText_eq_ok_iff_derives.mp ht
  rw [substitute_eq_writtenOut hnames hnumbers, ← hown,
    ← List.nil_append (rendered _ _)] at hspells
  obtain ⟨row', halike, hspells'⟩ := related_of_spells AlikeRows.refl AlikeRows.append hstops
    (fun _ hmem => h.spells_open hnumbers hnumbers' hmem) (fun _ _ hc => by cases hc) hspells
  obtain ⟨u, hu, hnesting⟩ := hderives.alike halike
  refine ⟨u, ofText_eq_ok_iff_derives.mpr ⟨row', ?_, hu, by omega⟩⟩
  rw [substitute_eq_writtenOut hnames' hnumbers', ← hother]
  exact hspells'

/-! ## The main result -/

/-- **A number that stands for a token stays apart from its surroundings.** It is written between
what becomes of the two sides. If it is negative, or if no point is before its token and none behind
it that the number could take, then every lexeme lies before it, within it or behind it. And whether
the text is accepted does not depend on which non-negative number a token stands for that is nowhere
beside a point. -/
theorem numbers_stay_apart (hnames : Named tokens) (hnumbers : Numeric tokens) (cs : List Char) :
    (∀ (name : String) (before after : List Char) (n : Number),
        Occurs name.toList before after cs → tokens.find? name = some (.number n) →
        let left := (substitute before (replacements tokens)).text
        let right := (substitute after (replacements tokens)).text
        (substitute cs (replacements tokens)).text = left ++ (n.factor ++ right)
          ∧ (n.isBelow .zero = true
              ∨ before.getLast? ≠ some '.' ∧ (after.head? = some '.' → '.' ∈ n.factor) →
            ∀ lexemes, Lexeme.scan (substitute cs (replacements tokens)).text = .ok lexemes →
              ∀ l ∈ lexemes, l.Apart left.length (left.length + n.factor.length)))
      ∧ ∀ others, Named others → Numeric others → VariesIn cs tokens others → ∀ limit,
        (∃ t, Tree.ofText (substitute cs (replacements tokens)).text limit = .ok t)
          ↔ ∃ t, Tree.ofText (substitute cs (replacements others)).text limit = .ok t := by
  refine ⟨fun name before after n hoccurs hname => ?_,
    fun others hnames' hnumbers' hvaries limit => ?_⟩
  · obtain ⟨_, heq, hfinite⟩ := hnumbers _ (OrderedMap.mem_of_find? hname)
    cases heq
    refine ⟨substitute_around hnames hoccurs hname (Number.factor_cases hfinite), ?_⟩
    intro hpoints lexemes hscan
    exact apart_of_occurs hnames hoccurs hname hfinite hpoints hscan
  · constructor
    · rintro ⟨t, ht⟩
      exact accepted_of_varies hnames hnumbers hnames' hnumbers' hvaries ht
    · rintro ⟨t, ht⟩
      exact accepted_of_varies hnames' hnumbers' hnames hnumbers hvaries.symm ht

/-- A negative number may stand beside a point, and another number than 2 may stand for `x`. -/
theorem numbers_stay_apart_quotient :
    let tokens (x : Number) : OrderedMap Contribution :=
      [("x", .number x), ("y", .number (.whole (-3)))]
    let filled (x : Number) := (substitute "x / y - .5".toList (replacements (tokens x))).text
    (∀ lexemes, Lexeme.scan (filled (.whole 2)) = .ok lexemes → ∀ l ∈ lexemes, l.Apart 4 8)
      ∧ ∃ t, Tree.ofText (filled (.real (.nearest false 5 2))) 100 = .ok t := by
  intro tokens filled
  have hnames : ∀ x, Named (tokens x) := by
    have hids : IsIdentifier "x" ∧ IsIdentifier "y" := by decide
    intro x
    exact List.forall_mem_cons.mpr ⟨hids.1, List.forall_mem_singleton.mpr hids.2⟩
  have hnumbers : ∀ x : Number, x.isFinite = true → Numeric (tokens x) := by
    intro x hx
    exact List.forall_mem_cons.mpr ⟨⟨x, rfl, hx⟩, List.forall_mem_singleton.mpr ⟨_, rfl, rfl⟩⟩
  obtain ⟨hapart, haccepted⟩ := numbers_stay_apart (hnames (.whole 2)) (hnumbers (.whole 2) rfl)
    "x / y - .5".toList
  have hy : Occurs "y".toList "x / ".toList " - .5".toList "x / y - .5".toList :=
    ⟨by decide, by decide, by decide⟩
  refine ⟨(hapart "y" _ _ (.whole (-3)) hy rfl).2 (Or.inl (by decide)), ?_⟩
  have hvaries : VariesIn "x / y - .5".toList (tokens (.whole 2))
      (tokens (.real (.nearest false 5 2))) := by
    have hx : ∀ name, (tokens (.real (.nearest false 5 2))).find? name
        ≠ (tokens (.whole 2)).find? name → name = "x" := by
      intro name hname
      by_contra hne
      refine hname ?_
      simp only [tokens, OrderedMap.find?, List.lookup_cons, beq_false_of_ne hne]
    refine ⟨fun name hname => ?_, fun name hname before after hoccurs => ?_⟩
    · obtain rfl := hx name hname
      exact ⟨_, _, rfl, rfl, by decide, by decide⟩
    · obtain rfl := hx name hname
      -- the only `x` is the first character
      cases before with
      | nil =>
        have hafter : after = " / y - .5".toList := (List.cons.inj hoccurs.text).2.symm
        rw [hafter]
        decide
      | cons c before =>
        have hrest : " / y - .5".toList = before ++ 'x' :: after := (List.cons.inj hoccurs.text).2
        have hmem : 'x' ∈ " / y - .5".toList := by
          rw [hrest]
          simp
        exact absurd hmem (by decide)
  exact (haccepted _ (hnames _) (hnumbers _ (by decide)) hvaries 100).mp
    ⟨.binary .sub (.binary .div (.literal (.ofInt 2)) (.group (.negate (.literal (.ofInt 3)))))
      (.literal ⟨false, 5, -1⟩), by decide⟩

/-- **Beside a point a number grows.** With 2 for `x` the text of `x.5` is a single number that
begins in the token and ends behind it, and with 2.5 for `x` it is no expression any more; a digit
behind a point becomes part of a number too. -/
theorem numbers_fuse_at_points :
    let filled (cs : String) (x : Number) :=
      (substitute cs.toList (replacements [("x", .number x)])).text
    Lexeme.scan (filled "x.5" (.whole 2)) = .ok [⟨.number "2.5".toList, 0⟩]
      ∧ ¬ Lexeme.Apart ⟨.number "2.5".toList, 0⟩ 0 1
      ∧ Tree.ofText (filled "x.5" (.whole 2)) 100 = .ok (.literal ⟨false, 25, -1⟩)
      ∧ Tree.ofText (filled "x.5" (.real (.nearest false 5 2))) 100
        = .error (.unexpected ".5".toList 3)
      ∧ Lexeme.scan (filled "1.x" (.whole 2)) = .ok [⟨.number "1.2".toList, 0⟩]
      ∧ ¬ Lexeme.Apart ⟨.number "1.2".toList, 0⟩ 2 3 := by
  refine ⟨by decide, ?_, by decide, by decide, by decide, ?_⟩
  · rintro (h | h | h) <;> revert h <;> decide
  · rintro (h | h | h) <;> revert h <;> decide

end Tariff.Expression

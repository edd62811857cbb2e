import Tariff.Proofs.Expression.Acceptance
import Tariff.Proofs.Expression.Filling

/-!
# Texts that bind as one factor

The text of a sub-expression goes between parentheses where it stands for a token. That makes it one
factor of the whole exactly if its own parentheses are balanced. If they are, no choice of the text
changes how the operations around it are grouped; if they are not, they pair up with those around
it, and operations of the text are grouped with operations of the expression.

* `parenthesesOf` — the parentheses of a text, which neither blanks nor names matter to;
* `Context.Fits` — the tree around a place between two parentheses, whatever stands there;
* `text_binds_as_factor` — the exact condition, with what holds under it;
* `text_that_does_not_bind` — a text that is no expression of its own.
-/

namespace Tariff.Expression

open Text Tariff.Expression.Parser

/-! ## The parentheses of a text -/

/-- Whether a symbol is a parenthesis. -/
def Symbol.isParenthesis : Symbol → Bool
  | .opening | .closing => true
  | _ => false

/-- The parenthesis that a character is. -/
def parenthesis? (c : Char) : Option Symbol :=
  (Symbol.ofChar? c).filter Symbol.isParenthesis

/-- The parentheses of a text, from left to right. -/
def parenthesesOf (cs : List Char) : List Symbol :=
  cs.filterMap parenthesis?

theorem parenthesesOf_append (a b : List Char) :
    parenthesesOf (a ++ b) = parenthesesOf a ++ parenthesesOf b :=
  List.filterMap_append

theorem parenthesesOf_eq_nil {cs : List Char} (h : ∀ c ∈ cs, parenthesis? c = none) :
    parenthesesOf cs = [] :=
  List.filterMap_eq_nil_iff.mpr h

theorem parenthesis?_of_isBlank {c : Char} (h : isBlank c = true) : parenthesis? c = none := by
  cases hc : Symbol.ofChar? c with
  | none => rw [parenthesis?, hc]; rfl
  | some s =>
    rw [isBlank_of_ofChar? hc] at h
    cases h

theorem parenthesis?_of_isNumberChar {c : Char} (h : IsNumberChar c) : parenthesis? c = none := by
  rw [parenthesis?, h.not_sign]
  rfl

theorem parenthesis?_of_isWordChar {c : Char} (h : isWordChar c = true) :
    parenthesis? c = none := by
  cases hc : Symbol.ofChar? c with
  | none => rw [parenthesis?, hc]; rfl
  | some s =>
    have hsigns : ['+', '-', '*', '/', '(', ')'].all (fun d => !isWordChar d) = true := by decide
    have hnot := List.all_eq_true.mp hsigns c (mem_signs_of_ofChar? hc)
    simp [h] at hnot

/-- Names are no parentheses, and neither are the zeros in their places. -/
theorem parenthesesOf_zeroed (cs : List Char) : parenthesesOf (zeroed cs) = parenthesesOf cs := by
  have hflag : ∀ afterPoint,
      parenthesesOf (zeroNames afterPoint (pieces cs)) = parenthesesOf cs := by
    induction cs using wordRuns with
    | hnil => exact fun _ => rfl
    | hgap c cs hc ih =>
      intro afterPoint
      rw [pieces_gap hc, zeroNames, parenthesesOf, List.filterMap_cons, ← parenthesesOf, ih]
      rfl
    | hword w cs hw hcs ih =>
      intro afterPoint
      have hnone : parenthesesOf w = [] :=
        parenthesesOf_eq_nil fun c hc => parenthesis?_of_isWordChar (hw.2 c hc)
      have hzero : parenthesesOf ['0'] = [] := rfl
      rw [pieces_word hw hcs, zeroNames, parenthesesOf_append, parenthesesOf_append, ih, hnone]
      split
      · rw [hzero]
      · rw [hnone]
  exact hflag false

theorem parenthesesOf_trim (cs : List Char) : parenthesesOf (trim cs) = parenthesesOf cs := by
  obtain ⟨before, after, hbefore, hafter, hsplit⟩ := exists_trim cs
  have hnone : ∀ bs, IsBlanks bs → parenthesesOf bs = [] := fun bs hbs =>
    parenthesesOf_eq_nil fun c hc => parenthesis?_of_isBlank (hbs c hc)
  conv_rhs => rw [hsplit]
  rw [parenthesesOf_append, parenthesesOf_append, hnone before hbefore, hnone after hafter,
    List.nil_append, List.append_nil]

/-- What a text spells has the parentheses of the text. -/
theorem Spells.parenthesesOf_eq {cs : List Char} {row : List Symbol} (h : Spells cs row) :
    parenthesesOf cs = row.filter Symbol.isParenthesis := by
  induction h with
  | nil => rfl
  | blank hc _ ih =>
    rw [parenthesesOf, List.filterMap_cons_none (parenthesis?_of_isBlank hc)]
    exact ih
  | @sign c s cs row hc _ ih =>
    cases hs : s.isParenthesis with
    | true =>
      have hsome : parenthesis? c = some s := by rw [parenthesis?, hc, Option.filter_some_pos hs]
      rw [parenthesesOf, List.filterMap_cons_some hsome, List.filter_cons_of_pos hs]
      exact congrArg (s :: ·) ih
    | false =>
      have hnone : parenthesis? c = none := by simp [parenthesis?, hc, hs]
      rw [parenthesesOf, List.filterMap_cons_none hnone, List.filter_cons_of_neg (by simp [hs])]
      exact ih
  | @number ds cs row hds _ _ ih =>
    have hnone : parenthesesOf ds = [] :=
      parenthesesOf_eq_nil fun c hc => parenthesis?_of_isNumberChar (hds.isNumberChar c hc)
    rw [parenthesesOf_append, hnone, List.nil_append, ih]
    rfl

/-! ## Balance is a matter of the parentheses -/

theorem balance_filter (row : List Symbol) :
    balance (row.filter Symbol.isParenthesis) = balance row := by
  induction row with
  | nil => rfl
  | cons s row ih =>
    cases s with
    | number cs => exact ih
    | operator op => exact ih
    | opening =>
      show balance (row.filter Symbol.isParenthesis) + 1 = balance row + 1
      rw [ih]
    | closing =>
      show balance (row.filter Symbol.isParenthesis) - 1 = balance row - 1
      rw [ih]

theorem balanced_filter_iff {row : List Symbol} :
    Balanced (row.filter Symbol.isParenthesis) ↔ Balanced row := by
  constructor
  · rintro ⟨hwhole, hstart⟩
    refine ⟨by rwa [balance_filter] at hwhole, fun front hfront => ?_⟩
    rw [← balance_filter]
    exact hstart _ (List.prefix_filter_iff.mpr ⟨front, hfront, rfl⟩)
  · rintro ⟨hwhole, hstart⟩
    refine ⟨by rwa [balance_filter], fun front hfront => ?_⟩
    obtain ⟨front', hfront', rfl⟩ := List.prefix_filter_iff.mp hfront
    rw [balance_filter]
    exact hstart front' hfront'

/-! ## A text between parentheses -/

/-- A sign in front of a text is a symbol of its own. -/
theorem Spells.of_cons_sign {c : Char} {s : Symbol} {cs : List Char} {row : List Symbol}
    (hc : Symbol.ofChar? c = some s) (h : Spells (c :: cs) row) :
    ∃ rest, row = s :: rest ∧ Spells cs rest := by
  obtain ⟨front, rest, rfl, hfront, hrest⟩ :=
    h.exists_of_append (a := [c]) (parted_behind_sign [] hc cs)
  obtain rfl := hfront.unique (.sign hc .nil)
  exact ⟨rest, rfl, hrest⟩

/-- A text with parentheses around a part of it spells what stands before, between and behind
them. -/
theorem spells_parenthesized_iff {a m b : List Char} {row : List Symbol} :
    Spells (a ++ '(' :: (m ++ ')' :: b)) row
      ↔ ∃ ra rm rb, row = ra ++ ((.opening :: (rm ++ [.closing])) ++ rb)
        ∧ Spells a ra ∧ Spells m rm ∧ Spells b rb := by
  constructor
  · intro h
    obtain ⟨ra, rest, rfl, ha, hrest⟩ := h.exists_of_append (parted_before_sign a rfl _)
    obtain ⟨inner, rfl, hinner⟩ := hrest.of_cons_sign rfl
    obtain ⟨rm, tail, rfl, hm, htail⟩ := hinner.exists_of_append (parted_before_sign m rfl _)
    obtain ⟨rb, rfl, hb⟩ := htail.of_cons_sign rfl
    exact ⟨ra, rm, rb, by simp, ha, hm, hb⟩
  · rintro ⟨ra, rm, rb, rfl, ha, hm, hb⟩
    have htail : Spells (')' :: b) (.closing :: rb) := .sign rfl hb
    have hinner := hm.append_of_parted htail (parted_before_sign m rfl b)
    have hrow := ha.append_of_parted (.sign (c := '(') rfl hinner) (parted_before_sign a rfl _)
    simpa using hrow

/-- Between the parentheses of a factor stands a sum. -/
theorem Derives.of_group {v : Tree} {row : List Symbol}
    (h : Derives .factor v (.opening :: (row ++ [.closing]))) :
    ∃ u, v = .group u ∧ Derives .sum u row := by
  generalize hrow : Symbol.opening :: (row ++ [.closing]) = whole at h
  cases h with
  | number cs => simp at hrow
  | negate inner => cases hrow
  | @group u symbols inner =>
    obtain ⟨hsymbols, -⟩ := List.append_inj' (List.cons.inj hrow).2 rfl
    subst hsymbols
    exact ⟨u, rfl, inner⟩

/-! ## What a text stands for -/

/-- A text on its own: without the blanks around it and with its names read as zero. A blank text
counts as zero. -/
def ownText (s : String) : List Char :=
  if isBlankText s then ['0'] else (substitute (trim s.toList) []).text

theorem ownText_of_not_blank {s : String} (h : isBlankText s = false) :
    ownText s = zeroed (trim s.toList) := by
  rw [ownText, if_neg (by simp [h]), substitute_text_nil]

/-- The tree around a place between two parentheses. Whatever text stands there, if only it is
accepted on its own, is one group of the tree; the operations around it do not depend on it. -/
def Context.Fits (c : Context) (before after : List Char) : Prop :=
  ∀ (s : String) (v : Tree) (own limit : Nat), isBlankText s = false →
    Tree.ofText (ownText s) own = .ok v → (c.plug (.group v)).nesting ≤ limit →
    Tree.ofText (before ++ '(' :: (ownText s ++ ')' :: after)) limit = .ok (c.plug (.group v))

theorem Context.fits_of_plug {c : Context} {before after : List Char} {front back : List Symbol}
    (hbefore : Spells before front) (hafter : Spells after back)
    (hplug : ∀ {w other}, Derives .factor w other →
      Derives .sum (c.plug w) (front ++ (other ++ back))) :
    c.Fits before after := by
  intro s v own limit _ hown hlimit
  obtain ⟨row, hspells, hderives, -⟩ := ofText_eq_ok_iff_derives.mp hown
  have hwhole := spells_parenthesized_iff.mpr ⟨front, row, back, rfl, hbefore, hspells, hafter⟩
  exact ofText_of_spells hwhole (hplug (.group hderives)) hlimit

variable {a m b : List Char} {limit : Nat} {t : Tree}

theorem balanced_of_ofText (h : Tree.ofText m limit = .ok t) : Balanced (parenthesesOf m) := by
  obtain ⟨row, hspells, hderives, -⟩ := ofText_eq_ok_iff_derives.mp h
  rw [hspells.parenthesesOf_eq, balanced_filter_iff]
  exact hderives.balanced

/-- **What stands between two parentheses of a text is accepted on its own exactly if its own
parentheses are balanced**, and is then a group of the tree. -/
theorem group_of_parenthesized
    (htree : Tree.ofText (a ++ '(' :: (m ++ ')' :: b)) limit = .ok t) :
    ((∃ u, Tree.ofText m limit = .ok u) ↔ Balanced (parenthesesOf m))
      ∧ ∀ u, Tree.ofText m limit = .ok u → ∃ c : Context, t = c.plug (.group u) ∧ c.Fits a b := by
  obtain ⟨row, hspells, hderives, hlimit⟩ := ofText_eq_ok_iff_derives.mp htree
  obtain ⟨ra, rm, rb, rfl, ha, hm, hb⟩ := spells_parenthesized_iff.mp hspells
  -- if the row between the parentheses is balanced, it cannot be torn apart
  have hgroup : Balanced rm → ∃ (c : Context) (u : Tree), Tree.ofText m limit = .ok u
      ∧ t = c.plug (.group u) ∧ c.Fits a b := by
    intro hbalanced
    obtain ⟨c, v, hv, rfl, hplug⟩ := hderives.around (.group hbalanced) rfl
    obtain ⟨u, rfl, hu⟩ := hv.of_group
    have hinner : u.nesting + 1 ≤ (c.plug (.group u)).nesting := c.nesting_le_plug (.group u)
    have hnesting : u.nesting ≤ limit := by omega
    exact ⟨c, u, ofText_of_spells hm hu hnesting, rfl, c.fits_of_plug ha hb hplug⟩
  have hparens : Balanced (parenthesesOf m) ↔ Balanced rm := by
    rw [hm.parenthesesOf_eq, balanced_filter_iff]
  refine ⟨⟨fun ⟨u, hu⟩ => balanced_of_ofText hu, fun h => ?_⟩, fun u hu => ?_⟩
  · obtain ⟨-, u, hu, -, -⟩ := hgroup (hparens.mp h)
    exact ⟨u, hu⟩
  · obtain ⟨c, u', hu', rfl, hfits⟩ := hgroup (hparens.mp (balanced_of_ofText hu))
    obtain rfl : u' = u := Except.ok.inj (hu'.symm.trans hu)
    exact ⟨c, rfl, hfits⟩

/-- A number that no other one goes on into, and that goes on into no other, is one operand of the
tree. -/
theorem literal_of_parted {ds : List Char} (hds : IsNumber ds) (hbefore : Parted a (ds ++ b))
    (hafter : Parted ds b) (htree : Tree.ofText (a ++ (ds ++ b)) limit = .ok t) :
    ∃ c : Context, t = c.plug (literal ds) ∧ c.Fits a b := by
  obtain ⟨row, hspells, hderives, -⟩ := ofText_eq_ok_iff_derives.mp htree
  obtain ⟨ra, rest, rfl, ha, hrest⟩ := hspells.exists_of_append hbefore
  obtain ⟨rd, rb, rfl, hd, hb⟩ := hrest.exists_of_append hafter
  obtain rfl := hd.unique (.of_isNumber hds)
  obtain ⟨c, v, hv, rfl, hplug⟩ := hderives.around (.number ds) rfl
  obtain rfl : v = literal ds := by
    cases hv with
    | number cs => rfl
  exact ⟨c, rfl, c.fits_of_plug ha hb hplug⟩

section Token

variable {cs : List Char} {tokens : OrderedMap Contribution} {front back : List Segment}
  {id s : String}

/-- The token pass writes a factor between what it makes of the two sides. -/
theorem replaceTokens_of_cut
    (hcut : segments ((replacements tokens).map (·.1)) cs = front ++ .token id.toList :: back)
    {c : Contribution} (hid : tokens.find? id = some c) :
    replaceTokens (replacements tokens) cs
      = rendered (replacements tokens) front
          ++ (c.factor ++ rendered (replacements tokens) back) := by
  rw [replaceTokens, hcut, List.flatMap_append, List.flatMap_cons]
  have hfactor : Segment.render (replacements tokens) (.token id.toList) = c.factor := by
    rw [Segment.render, lookup_replacements, hid]
    rfl
  rw [hfactor]
  rfl

/-- A text that is not blank goes between parentheses. -/
theorem substitute_text_of_text
    (hcut : segments ((replacements tokens).map (·.1)) cs = front ++ .token id.toList :: back)
    (hid : tokens.find? id = some (.text s)) (hblank : isBlankText s = false) :
    (substitute cs (replacements tokens)).text
      = zeroed (rendered (replacements tokens) front)
        ++ '(' :: (ownText s ++ ')' :: zeroed (rendered (replacements tokens) back)) := by
  have hopen : ∀ b, startsInWord ('(' :: b) = false := fun _ => rfl
  have hclose : ∀ b, startsInWord (')' :: b) = false := fun _ => rfl
  have hassoc : ∀ b, '(' :: (trim s.toList ++ [')']) ++ b = '(' :: (trim s.toList ++ ')' :: b) := by
    simp
  rw [substitute_text, replaceTokens_of_cut hcut hid, Contribution.factor_of_not_blank hblank,
    hassoc,
    zeroed_append _ (hopen _), zeroed_gap (by decide) (by decide), zeroed_append _ (hclose _),
    zeroed_gap (by decide) (by decide), ownText_of_not_blank hblank]

theorem isNumber_zero : IsNumber ['0'] := .whole (by decide) (by simp)

/-- A blank text is a zero, which no word may stand beside. -/
theorem substitute_text_of_blank
    (hcut : segments ((replacements tokens).map (·.1)) cs = front ++ .token id.toList :: back)
    (hid : tokens.find? id = some (.text s)) (hblank : isBlankText s = true)
    (hfront : endsInWord (rendered (replacements tokens) front) = false)
    (hback : startsInWord (rendered (replacements tokens) back) = false) :
    (substitute cs (replacements tokens)).text
      = zeroed (rendered (replacements tokens) front)
        ++ (['0'] ++ zeroed (rendered (replacements tokens) back)) := by
  have hnoname : ∀ w, Piece.word w ∈ pieces ['0'] → isName w = false := fun w hw =>
    isName_of_mem_pieces (digit_of_mem_isNumber isNumber_zero) hw
  rw [substitute_text, replaceTokens_of_cut hcut hid, Contribution.factor_of_blank hblank,
    zeroed_around hfront hnoname hback]

/-- **A text that stands for a token is one factor exactly if its parentheses are balanced.** Then
it is accepted on its own, its tree is one group of the whole tree, and any other such text in its
place is grouped with its surroundings in the same way. A blank text is a zero without parentheses;
where neither a word nor a point is beside it, it is one factor in the same sense. -/
theorem text_binds_as_factor
    (hcut : segments ((replacements tokens).map (·.1)) cs = front ++ .token id.toList :: back)
    (hid : tokens.find? id = some (.text s))
    (htree : Tree.ofText (substitute cs (replacements tokens)).text limit = .ok t) :
    let left := rendered (replacements tokens) front
    let right := rendered (replacements tokens) back
    (isBlankText s = false →
        (substitute cs (replacements tokens)).text
            = zeroed left ++ '(' :: (ownText s ++ ')' :: zeroed right)
          ∧ ((∃ u, Tree.ofText (ownText s) limit = .ok u) ↔ Balanced (parenthesesOf s.toList))
          ∧ ∀ u, Tree.ofText (ownText s) limit = .ok u →
            ∃ c : Context, t = c.plug (.group u) ∧ c.Fits (zeroed left) (zeroed right))
      ∧ (isBlankText s = true → endsInWord left = false → left.getLast? ≠ some '.' →
        startsInWord right = false → right.head? ≠ some '.' →
        (substitute cs (replacements tokens)).text = zeroed left ++ (ownText s ++ zeroed right)
          ∧ ∃ c : Context, t = c.plug (literal (ownText s))
            ∧ c.Fits (zeroed left) (zeroed right)) := by
  intro left right
  refine ⟨fun hblank => ?_, fun hblank hleft hleftPoint hright hrightPoint => ?_⟩
  · have htext := substitute_text_of_text hcut hid hblank
    have hparens : parenthesesOf s.toList = parenthesesOf (ownText s) := by
      rw [ownText_of_not_blank hblank, parenthesesOf_zeroed, parenthesesOf_trim]
    rw [htext] at htree
    rw [hparens]
    exact ⟨htext, group_of_parenthesized htree⟩
  · have htext := substitute_text_of_blank hcut hid hblank hleft hright
    have hown : ownText s = ['0'] := by rw [ownText, if_pos hblank]
    rw [htext] at htree
    rw [hown]
    have hbefore : Parted (zeroed left) (['0'] ++ zeroed right) := by
      have hlast := getLast?_zeroed hleft
      rw [endsInWord_eq_false_iff, ← hlast] at hleft
      exact parted_of_last hleft (by rwa [hlast]) _
    have hafter : Parted ['0'] (zeroed right) := by
      have hhead := head?_zeroed hright
      rw [startsInWord_eq_false_iff, ← hhead] at hright
      exact parted_of_first _ hright (by rwa [hhead])
    exact ⟨htext, literal_of_parted isNumber_zero hbefore hafter htree⟩

end Token

/-- A sum and a blank text in one place of an expression: each is a factor of the product that it
stands in. -/
theorem text_binds_as_factor_box :
    let written (s : String) :=
      (substitute "2 - box * 3".toList (replacements [("box", .text s)])).text
    let around (v : Tree) : Tree := .binary .sub (.literal (.ofInt 2))
      (.binary .mul v (.literal (.ofInt 3)))
    let u : Tree := .binary .add (.literal (.ofInt 1)) (.literal (.ofInt 0))
    Tree.ofText (written " 1 + y ") 100 = .ok (around (.group u))
      ∧ (∃ c : Context, around (.group u) = c.plug (.group u)
        ∧ c.Fits "2 - ".toList " * 3".toList)
      ∧ Tree.ofText (written " ") 100 = .ok (around (.literal (.ofInt 0)))
      ∧ ∃ c : Context, around (.literal (.ofInt 0)) = c.plug (literal (ownText " "))
        ∧ c.Fits "2 - ".toList " * 3".toList := by
  intro written around u
  have hsum : Tree.ofText (written " 1 + y ") 100 = .ok (around (.group u)) := by decide
  have hzero : Tree.ofText (written " ") 100 = .ok (around (.literal (.ofInt 0))) := by decide
  have hsegments : segments ["box".toList] "2 - box * 3".toList
      = "2 - ".toList.map .plain ++ .token "box".toList :: " * 3".toList.map .plain := by decide
  have hcut : ∀ s, segments ((replacements [("box", Contribution.text s)]).map (·.1))
      "2 - box * 3".toList
        = "2 - ".toList.map .plain ++ .token "box".toList :: " * 3".toList.map .plain := by
    intro s
    have hnames : (replacements [("box", Contribution.text s)]).map (·.1) = ["box".toList] := by
      simp [replacements]
    rw [hnames, hsegments]
  have hsumBinds := (text_binds_as_factor (hcut " 1 + y ") rfl hsum).1 (by decide)
  have hzeroBinds := (text_binds_as_factor (hcut " ") rfl hzero).2
  exact ⟨hsum, hsumBinds.2.2 u (by decide), hzero,
    (hzeroBinds (by decide) (by decide) (by decide) (by decide) (by decide)).2⟩

/-- **A text that closes a parenthesis before it opens one binds as no factor.** The formula has a
price with it, but the text is no expression of its own, and its last operand is multiplied. -/
theorem text_that_does_not_bind :
    let tokens := [("box", Contribution.text "1) + (2")]
    let text := (substitute "box * 3".toList (replacements tokens)).text
    Tree.ofText text 100 = .ok (.binary .add (.group (.literal (.ofInt 1)))
        (.binary .mul (.group (.literal (.ofInt 2))) (.literal (.ofInt 3))))
      ∧ evaluateText text 100 = .ok (.ofInt 7)
      ∧ ∀ limit u, Tree.ofText (ownText "1) + (2") limit ≠ .ok u := by
  intro tokens text
  have hnone : ∀ limit u, Tree.ofText (ownText "1) + (2") limit ≠ .ok u := by
    intro limit u hu
    have hstart : (0 : Int) ≤ balance [Symbol.closing] :=
      (balanced_of_ofText hu).start [.closing] ⟨[.opening], by decide⟩
    exact absurd hstart (by decide)
  exact ⟨by decide, by decide, hnone⟩

end Tariff.Expression

import Tariff.Proofs.Expression.PlainRuns
import Tariff.Proofs.Identifier

/-!
# Generated ids in expressions

The id that is made for a variable is meant to be written in expressions. There a name is a word
that does not start with a digit, while a slug may start with one. `forVariable_in_expressions`
tells for which labels the id is a name, and what follows from it:

* on its own, and wherever neither a word nor a point is beside it, it is read as one name;
* a variable of that id does not change what a number is read as, again unless a point is beside it.

`forVariable_no_name` shows what the conditions exclude.
-/

namespace Tariff.Identifier

open Expression Numeral

/-! ## The first character of an id -/

theorem isName_append {w : List Char} (hw : w ≠ []) (more : List Char) :
    isName (w ++ more) = isName w := by
  obtain ⟨c, w, rfl⟩ := List.exists_cons_of_ne_nil hw
  rfl

/-- A counter at the end of an id does not make a name of it. -/
theorem isName_fresh {base : String} (hbase : base.toList ≠ []) (taken : List String) :
    isName (fresh base taken).toList = isName base.toList := by
  obtain ⟨more, hmore⟩ := base_isPrefix_fresh base taken
  rw [← hmore, isName_append hbase]

/-- A number below zero at its end keeps an id from being a word. -/
theorem not_isWord_fresh_numbered {k : Int} (hk : k < 0) (base : String) (taken : List String) :
    ¬ IsWord (fresh (numbered base k) taken).toList := by
  intro hword
  have hmem : '-' ∈ (numbered base k).toList := by
    rw [numbered, integerText, if_pos hk]
    simp
  have hminus := hword.2 '-' ((base_isPrefix_fresh _ taken).subset hmem)
  exact absurd hminus (by decide)

/-- The id for a name without a slug. -/
theorem isIdentifier_fresh_numbered_iff {base : String} (hbase : IsIdentifier base) (k : Int)
    (taken : List String) : IsIdentifier (fresh (numbered base k) taken) ↔ 0 ≤ k := by
  constructor
  · intro h
    by_contra hk
    exact not_isWord_fresh_numbered (Int.not_le.mp hk) base taken h.1
  · intro hk
    obtain ⟨n, rfl⟩ := Int.eq_ofNat_of_zero_le hk
    have hword := isWord_numbered hbase.1 n
    refine ⟨isWord_fresh hword taken, ?_⟩
    rw [isName_fresh hword.1, toList_numbered, isName_append hbase.1.1]
    exact hbase.2

/-- The id for a name that has a slug. -/
theorem isIdentifier_fresh_slug_iff {label : String} {limit : Int}
    (h : (slug label limit).isEmpty = false) (taken : List String) :
    IsIdentifier (fresh (slug label limit) taken) ↔ isName (slug label limit).toList = true := by
  have hword := isWord_slug h
  rw [IsIdentifier, isName_fresh hword.1]
  exact and_iff_right (isWord_fresh hword taken)

/-! ## What an id does in an expression -/

/-- `others` has all tokens of `tokens` and those of a variable: its id, or words that go on from
it. -/
structure Defines (id : String) (tokens others : OrderedMap Contribution) : Prop where
  kept : ∀ k ∈ tokens.keys, k ∈ others.keys
  added : ∀ k ∈ others.keys, k ∈ tokens.keys ∨ IsWord k.toList ∧ id.toList <+: k.toList

/-- The tokens of a map as they are looked for in an expression. -/
abbrev tokenNames (tokens : OrderedMap Contribution) : List (List Char) :=
  (replacements tokens).map (·.1)

theorem mem_tokenNames {tokens : OrderedMap Contribution} {t : List Char} :
    t ∈ tokenNames tokens ↔ ∃ k ∈ tokens.keys, k.toList = t := by
  rw [tokenNames, keys_replacements, List.mem_map]

/-- What goes on from a name is a name, so all tokens that are new are names. -/
theorem Defines.extends {id : String} {tokens others : OrderedMap Contribution}
    (hid : IsIdentifier id) (h : Defines id tokens others) :
    Extends (tokenNames tokens) (tokenNames others) where
  kept := by
    intro t ht
    obtain ⟨k, hk, rfl⟩ := mem_tokenNames.mp ht
    exact mem_tokenNames.mpr ⟨k, h.kept k hk, rfl⟩
  added := by
    intro t ht
    obtain ⟨k, hk, rfl⟩ := mem_tokenNames.mp ht
    refine (h.added k hk).imp (fun hold => mem_tokenNames.mpr ⟨k, hold, rfl⟩) ?_
    rintro ⟨hword, more, hmore⟩
    refine ⟨hword, ?_⟩
    rw [← hmore, isName_append hid.1.1]
    exact hid.2

/-- What the tokens of a map make of some segments of an expression. -/
def written (tokens : OrderedMap Contribution) (segs : List Segment) : List Char :=
  zeroed (rendered (replacements tokens) segs)

/-- On its own a name is unknown and is read as zero. -/
theorem substitute_identifier {id : String} (hid : IsIdentifier id) :
    substitute id.toList [] = ⟨['0'], [id]⟩ := by
  have hreplace : replaceTokens [] id.toList = id.toList :=
    replaceTokens_eq_self Replacements.words_nil fun _ _ => rfl
  have hnames : namesIn false [.word id.toList] = [id.toList] := by
    rw [namesIn, if_pos (by simp [hid.2])]
    rfl
  rw [substitute, hreplace, pieces_eq_singleton hid.1, hnames, ← pieces_eq_singleton hid.1]
  show Substituted.mk (zeroed id.toList) _ = _
  rw [zeroed_name hid.1 hid.2]
  simp [List.eraseDups_cons]

/-- A number that stands plain is the same operand with and without a variable. -/
theorem Defines.number {id : String} {tokens others : OrderedMap Contribution}
    (hid : IsIdentifier id) (h : Defines id tokens others) {front back : List Segment}
    {ds cs : List Char} (hds : IsNumber ds)
    (hplain : StandsPlain (tokenNames tokens) front ds back cs) :
    IsOperand ds (written tokens front) (written tokens back)
        (substitute cs (replacements tokens)).text
      ∧ ∃ front' back', StandsPlain (tokenNames others) front' ds back' cs
        ∧ front'.flatMap Segment.chars = front.flatMap Segment.chars
        ∧ back'.flatMap Segment.chars = back.flatMap Segment.chars
        ∧ IsOperand ds (written others front') (written others back')
          (substitute cs (replacements others)).text := by
  obtain ⟨front', back', hplain', hfront, hback⟩ := hplain.extend (h.extends hid) hds
  exact ⟨hplain.number hds, front', back', hplain', hfront, hback, hplain'.number hds⟩

/-- **When the id that is made for a variable is a name of expressions.** If the label has no slug,
this is so for every place from zero on. Otherwise the id is made of letters, digits and
underscores, and it is a name exactly if the slug does not start with a digit. A name is unknown on
its own and is read as zero. Wherever it stands plain in an expression it is listed as unknown, and
a zero stands for it as one operand. To define a variable of such an id, whose tokens are words that
start with it, does not change any number that stands plain: it is the same operand, in the same
place of the expression. -/
theorem forVariable_in_expressions (label : String) (place : Int) (taken : List String)
    (limit : Int) :
    let s := slug label limit
    let id := forVariable label place taken limit
    (s.isEmpty = true → (IsIdentifier id ↔ 0 ≤ place))
      ∧ (s.isEmpty = false → IsWord id.toList ∧ (IsIdentifier id ↔ isName s.toList = true))
      ∧ (IsIdentifier id →
        substitute id.toList [] = ⟨['0'], [id]⟩
          ∧ (∀ (tokens : OrderedMap Contribution) (front back : List Segment) (cs : List Char),
            StandsPlain (tokenNames tokens) front id.toList back cs →
              id ∈ (substitute cs (replacements tokens)).unknown
                ∧ IsOperand ['0'] (written tokens front) (written tokens back)
                  (substitute cs (replacements tokens)).text)
          ∧ ∀ tokens others : OrderedMap Contribution, Defines id tokens others →
            ∀ (ds : List Char) (front back : List Segment) (cs : List Char), IsNumber ds →
              StandsPlain (tokenNames tokens) front ds back cs →
                IsOperand ds (written tokens front) (written tokens back)
                    (substitute cs (replacements tokens)).text
                  ∧ ∃ front' back', StandsPlain (tokenNames others) front' ds back' cs
                    ∧ front'.flatMap Segment.chars = front.flatMap Segment.chars
                    ∧ back'.flatMap Segment.chars = back.flatMap Segment.chars
                    ∧ IsOperand ds (written others front') (written others back')
                      (substitute cs (replacements others)).text) := by
  intro s id
  have hfallback : IsIdentifier "variable" := by decide
  have hid : id = fresh (if s.isEmpty then numbered "variable" place else s) taken := rfl
  refine ⟨fun hempty => ?_, fun hne => ?_, fun hname => ⟨substitute_identifier hname, ?_, ?_⟩⟩
  · rw [hid, if_pos hempty]
    exact isIdentifier_fresh_numbered_iff hfallback place taken
  · rw [hid, if_neg (by simp [hne])]
    exact ⟨isWord_fresh (isWord_slug hne) taken, isIdentifier_fresh_slug_iff hne taken⟩
  · intro tokens front back cs hplain
    have hunknown := hplain.name hname.1 hname.2
    rwa [String.ofList_toList] at hunknown
  · exact fun tokens others hdefines ds front back cs => hdefines.number hname

/-- A formula asks for a number of coats. Before that the name of the new variable is unknown. The
factor 2.5 is one operand before and after. -/
theorem forVariable_coats :
    let tokens : OrderedMap Contribution := [("area", .number (.whole 3))]
    let others : OrderedMap Contribution := tokens ++ [("coats_2", .number (.whole 7))]
    let cs := "2.5 * coats_2".toList
    forVariable "Coats!" 1 ["area", "coats"] = "coats_2" ∧ IsIdentifier "coats_2"
      ∧ (substitute cs (replacements tokens)).text = "2.5 * 0".toList
      ∧ "coats_2" ∈ (substitute cs (replacements tokens)).unknown
      ∧ IsOperand "2.5".toList [] " * 0".toList (substitute cs (replacements tokens)).text
      ∧ (substitute cs (replacements others)).text = "2.5 * 7".toList
      ∧ ∃ left right,
        IsOperand "2.5".toList left right (substitute cs (replacements others)).text := by
  intro tokens others cs
  have hid : forVariable "Coats!" 1 ["area", "coats"] = "coats_2" := by decide
  have hslug : (slug "Coats!" defaultLength).isEmpty = false := by decide
  obtain ⟨-, hword, hname⟩ :=
    forVariable_in_expressions "Coats!" 1 ["area", "coats"] defaultLength
  have hidentifier := (hword hslug).2.mpr (by decide)
  obtain ⟨-, hunknown, hnumber⟩ := hname hidentifier
  rw [hid] at hidentifier hunknown hnumber
  have hwords : ∀ t ∈ tokenNames tokens, IsWord t := by decide
  have hcut : "2.5 * ".toList ++ ("coats_2".toList ++ []) = cs := rfl
  have hfound : ∃ front back, StandsPlain (tokenNames tokens) front "coats_2".toList back cs := by
    obtain ⟨front, back, hplain, -, -⟩ := hcut ▸ standsPlain_of_words hwords (by decide) (by decide)
      (by decide) (by decide) (by decide)
    exact ⟨front, back, hplain⟩
  obtain ⟨front, back, hplain⟩ := hfound
  have hfactor : StandsPlain (tokenNames tokens) [] "2.5".toList
      (" * coats_2".toList.map .plain) cs := by
    refine ⟨by decide, by simp, fun s hs => ?_⟩
    obtain rfl : Segment.plain ' ' = s := Option.some.inj hs
    exact ⟨' ', rfl, by decide, by decide⟩
  have hnumeral : IsNumber (['2'] ++ '.' :: ['5']) :=
    .pointed (by decide) (by decide) (Or.inl (by decide))
  have hdefines : Defines "coats_2" tokens others := ⟨by decide, by decide⟩
  obtain ⟨hoperand, front', back', -, -, -, hoperand'⟩ :=
    hnumber tokens others hdefines "2.5".toList [] _ cs hnumeral hfactor
  exact ⟨hid, hidentifier, by decide, (hunknown tokens front back cs hplain).1, hoperand, by decide,
    _, _, hoperand'⟩

/-- **Not every id that is made for a variable is a name.** A slug may start with a digit: such an
id is not found in an expression, and as a token it takes the place of a number. A place below zero
puts a minus into the id. A name beside a point makes one number with what is behind it. -/
theorem forVariable_no_name :
    (forVariable "50% off" 0 [] = "50_off" ∧ ¬ IsIdentifier "50_off"
        ∧ substitute "50_off".toList [] = ⟨"50_off".toList, []⟩)
      ∧ (forVariable "2" 0 [] = "2"
        ∧ evaluateText (substitute "2 * 3".toList []).text 100 = .ok (.ofInt 6)
        ∧ evaluateText (substitute "2 * 3".toList
            (replacements [("2", .number (.whole 5))])).text 100 = .ok (.ofInt 15))
      ∧ (forVariable "?" (-1) [] = "variable_-1"
        ∧ substitute "variable_-1".toList [] = ⟨"0-1".toList, ["variable_"]⟩)
      ∧ forVariable "x" 0 [] = "x"
        ∧ (substitute "x.5".toList []).text = "0.5".toList
        ∧ (substitute "x.5".toList (replacements [("x", .number (.whole 2))])).text
          = "2.5".toList := by
  decide

end Tariff.Identifier

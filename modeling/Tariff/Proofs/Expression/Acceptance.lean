import Tariff.Proofs.Expression.Composition
import Tariff.Proofs.Expression.Sentences
import Tariff.Proofs.Numeral.Digits

/-!
# Which texts have a tree

A text has a tree exactly if its lexemes are a sentence of the grammar, and the tree is then the
only one of the grammar's shape that has these lexemes in order (`ofText_exactly`). Nothing of this
refers to how the parser works:

* `Tree.Shaped` — which trees the grammar has: products group to the left and bind tighter than
  sums, and a sum is an operand of a product only between parentheses;
* `Tree.InOrder` — the lexemes of a tree from left to right, each number by any of its spellings;
* `Tree.text` — one text of a tree, with every number by its digits and without blanks.
-/

namespace Tariff.Expression

open Numeral Text Tariff.Expression.Parser

/-! ## Numbers are read back -/

/-- The digits of a number are cut into those before a point and those behind it. -/
theorem read?_placePoint {ds : List Char} (hds : IsDigits ds) {k : Nat} (hk : 0 < k) :
    Decimal.read? (Decimal.placePoint ds (-(k : Int) + ds.length))
      = some ⟨false, ofDigits ds, -k⟩ := by
  have hzero : IsDigits ['0'] := by decide
  unfold Decimal.placePoint
  split
  · next hplaces =>
    -- all digits stand behind the point, after some zeros
    have hzeros : (-(-(k : Int) + ds.length)).toNat = k - ds.length := by omega
    have hfs : IsDigits (List.replicate (k - ds.length) '0' ++ ds) := (isDigits_zeros _).append hds
    have hread := read?_pointed hzero hfs (Or.inl (List.cons_ne_nil _ _))
    have hvalue : ofDigits (['0'] ++ (List.replicate (k - ds.length) '0' ++ ds)) = ofDigits ds := by
      rw [← List.append_assoc]
      exact ofDigits_zeros_append (k - ds.length + 1) ds
    have hcount : (List.replicate (k - ds.length) '0' ++ ds).length = k := by
      simp only [List.length_append, List.length_replicate]
      omega
    rw [hvalue, hcount] at hread
    rw [hzeros]
    exact hread
  · next hplaces =>
    have hplaces' : (-(k : Int) + ds.length).toNat = ds.length - k := by omega
    have hmore : ¬ ds.length ≤ ds.length - k := by omega
    have htake : IsDigits (ds.take (ds.length - k)) := fun c hc => hds c (List.mem_of_mem_take hc)
    have hdrop : IsDigits (ds.drop (ds.length - k)) := fun c hc => hds c (List.mem_of_mem_drop hc)
    have hsome : ds.drop (ds.length - k) ≠ [] := by
      rw [ne_eq, List.drop_eq_nil_iff]
      exact hmore
    have hread := read?_pointed htake hdrop (Or.inr hsome)
    have hcount : (ds.drop (ds.length - k)).length = k := by
      rw [List.length_drop]
      omega
    rw [List.take_append_drop, hcount] at hread
    show Decimal.read? (if ds.length ≤ (-(k : Int) + ds.length).toNat then _ else _) = _
    rw [hplaces', if_neg hmore]
    exact hread

/-- A decimal as a number of the grammar can state it: without a sign, and not in powers of ten. -/
def IsPlain (d : Decimal) : Prop :=
  d.neg = false ∧ d.exp ≤ 0

instance (d : Decimal) : Decidable (IsPlain d) :=
  inferInstanceAs (Decidable (_ ∧ _))

theorem read?_fixedDigits {d : Decimal} (h : IsPlain d) :
    Decimal.read? d.fixedDigits = some d := by
  obtain ⟨neg, coeff, exp⟩ := d
  obtain ⟨hneg, hexp⟩ : neg = false ∧ exp ≤ 0 := h
  subst hneg
  have hds : IsDigits (digits coeff) := isDigits_digits coeff
  have hne : digits coeff ≠ [] := digits_ne_nil coeff
  have hplain : ¬ (coeff = 0 ∧ 0 < exp) := by omega
  have hfixed : Decimal.fixedDigits ⟨false, coeff, exp⟩
      = Decimal.placePoint (digits coeff) (exp + (digits coeff).length) := by
    rw [Decimal.fixedDigits, if_neg hplain]
  rw [hfixed]
  rcases Int.lt_or_eq_of_le hexp with hlt | rfl
  · obtain ⟨k, rfl⟩ : ∃ k : Nat, exp = -k := ⟨exp.natAbs, by omega⟩
    have hread := read?_placePoint hds (show 0 < k by omega)
    rwa [ofDigits_digits] at hread
  · have hwhole : Decimal.placePoint (digits coeff) (0 + (digits coeff).length) = digits coeff := by
      have hpos : 0 < (digits coeff).length := List.length_pos_iff.mpr hne
      have hplaces : ¬ (0 + (digits coeff).length : Int) ≤ 0 := by omega
      have hcount : (0 + (digits coeff).length : Int).toNat = (digits coeff).length := by omega
      rw [Decimal.placePoint, if_neg hplaces]
      show (if (digits coeff).length ≤ (0 + (digits coeff).length : Int).toNat then _ else _) = _
      rw [hcount, if_pos (Nat.le_refl _), Nat.sub_self, List.replicate_zero, List.append_nil]
    rw [hwhole, read?_whole hds hne, ofDigits_digits]

/-- Every number of a text states a plain decimal. -/
theorem IsNumber.exists_read? {cs : List Char} (h : IsNumber cs) :
    ∃ d, Decimal.read? cs = some d ∧ IsPlain d := by
  cases h with
  | whole hds hne => exact ⟨_, read?_whole hds hne, rfl, Int.le_refl 0⟩
  | pointed hds hfs hne => exact ⟨_, read?_pointed hds hfs hne, rfl, by simp⟩

theorem literal_of_read? {cs : List Char} {d : Decimal} (h : Decimal.read? cs = some d) :
    literal cs = .literal d := by
  rw [literal, h]
  rfl

/-! ## Shape and lexemes of a tree -/

namespace Tree

/-- The trees of the grammar. -/
inductive Shaped : Level → Tree → Prop where
  | literal {d : Decimal} (hd : IsPlain d) : Shaped .factor (.literal d)
  | negate {t : Tree} (inner : Shaped .factor t) : Shaped .factor (.negate t)
  | group {t : Tree} (inner : Shaped .sum t) : Shaped .factor (.group t)
  | ofFactor {t : Tree} (inner : Shaped .factor t) : Shaped .product t
  | product {op : Operator} {l r : Tree} (hop : op.IsProduct) (left : Shaped .product l)
      (right : Shaped .factor r) : Shaped .product (.binary op l r)
  | ofProduct {t : Tree} (inner : Shaped .product t) : Shaped .sum t
  | sum {op : Operator} {l r : Tree} (hop : op.IsSum) (left : Shaped .sum l)
      (right : Shaped .product r) : Shaped .sum (.binary op l r)

/-- The lexemes of a tree from left to right. A number may be spelled in any way that reads as it.
-/
inductive InOrder : Tree → List Symbol → Prop where
  | literal {d : Decimal} {cs : List Char} (hcs : Decimal.read? cs = some d) :
      InOrder (.literal d) [.number cs]
  | negate {t : Tree} {symbols : List Symbol} (inner : InOrder t symbols) :
      InOrder (.negate t) (.operator .sub :: symbols)
  | group {t : Tree} {symbols : List Symbol} (inner : InOrder t symbols) :
      InOrder (.group t) (.opening :: (symbols ++ [.closing]))
  | binary {op : Operator} {l r : Tree} {ls rs : List Symbol} (left : InOrder l ls)
      (right : InOrder r rs) : InOrder (.binary op l r) (ls ++ .operator op :: rs)

/-- The lexemes of a tree, with every number by its digits. -/
def symbols : Tree → List Symbol
  | literal d => [.number d.fixedDigits]
  | negate t => .operator .sub :: t.symbols
  | group t => .opening :: (t.symbols ++ [.closing])
  | binary op l r => l.symbols ++ .operator op :: r.symbols

/-- A tree as a text without blanks. -/
def text (t : Tree) : List Char :=
  t.symbols.flatMap Symbol.chars

end Tree

/-- Every number among the symbols of a text is one. -/
theorem Spells.isNumber {cs : List Char} {symbols : List Symbol} (h : Spells cs symbols) :
    ∀ ds, Symbol.number ds ∈ symbols → IsNumber ds := by
  induction h with
  | nil => intro ds hds; cases hds
  | blank _ _ ih => exact ih
  | @sign c s cs symbols hc _ ih =>
    intro ds hds
    rcases List.mem_cons.mp hds with rfl | hds
    · exact absurd hc (ofChar?_ne_number c ds)
    · exact ih ds hds
  | number hnumber _ _ ih =>
    intro ds hds
    rcases List.mem_cons.mp hds with heq | hds
    · cases heq
      exact hnumber
    · exact ih ds hds

/-- What is derived has the shape of its level and the lexemes it is derived from. -/
theorem Derives.shaped {level : Level} {t : Tree} {symbols : List Symbol}
    (h : Derives level t symbols) (hnumbers : ∀ ds, Symbol.number ds ∈ symbols → IsNumber ds) :
    t.Shaped level ∧ t.InOrder symbols := by
  induction h with
  | number cs =>
    obtain ⟨d, hread, hd⟩ := (hnumbers cs List.mem_cons_self).exists_read?
    rw [literal_of_read? hread]
    exact ⟨.literal hd, .literal hread⟩
  | negate _ ih =>
    obtain ⟨hshaped, hinorder⟩ := ih fun ds hds => hnumbers ds (List.mem_cons_of_mem _ hds)
    exact ⟨.negate hshaped, .negate hinorder⟩
  | group _ ih =>
    obtain ⟨hshaped, hinorder⟩ := ih fun ds hds =>
      hnumbers ds (List.mem_cons_of_mem _ (List.mem_append_left _ hds))
    exact ⟨.group hshaped, .group hinorder⟩
  | ofFactor _ ih =>
    obtain ⟨hshaped, hinorder⟩ := ih hnumbers
    exact ⟨.ofFactor hshaped, hinorder⟩
  | ofProduct _ ih =>
    obtain ⟨hshaped, hinorder⟩ := ih hnumbers
    exact ⟨.ofProduct hshaped, hinorder⟩
  | product hop _ _ ihl ihr =>
    obtain ⟨hl, hlorder⟩ := ihl fun ds hds => hnumbers ds (List.mem_append_left _ hds)
    obtain ⟨hr, hrorder⟩ := ihr fun ds hds =>
      hnumbers ds (List.mem_append_right _ (List.mem_cons_of_mem _ hds))
    exact ⟨.product hop hl hr, .binary hlorder hrorder⟩
  | sum hop _ _ ihl ihr =>
    obtain ⟨hl, hlorder⟩ := ihl fun ds hds => hnumbers ds (List.mem_append_left _ hds)
    obtain ⟨hr, hrorder⟩ := ihr fun ds hds =>
      hnumbers ds (List.mem_append_right _ (List.mem_cons_of_mem _ hds))
    exact ⟨.sum hop hl hr, .binary hlorder hrorder⟩

/-- A tree of the grammar's shape is derived from its lexemes. -/
theorem Tree.Shaped.derives {level : Level} {t : Tree} (h : t.Shaped level)
    {symbols : List Symbol} (horder : t.InOrder symbols) : Derives level t symbols := by
  induction h generalizing symbols with
  | literal =>
    cases horder with
    | literal hread =>
      rw [← literal_of_read? hread]
      exact .number _
  | negate _ ih =>
    cases horder with
    | negate inner => exact .negate (ih inner)
  | group _ ih =>
    cases horder with
    | group inner => exact .group (ih inner)
  | ofFactor _ ih => exact .ofFactor (ih horder)
  | ofProduct _ ih => exact .ofProduct (ih horder)
  | product hop _ _ ihl ihr =>
    cases horder with
    | binary left right => exact .product hop (ihl left) (ihr right)
  | sum hop _ _ ihl ihr =>
    cases horder with
    | binary left right => exact .sum hop (ihl left) (ihr right)

/-! ## The text of a tree -/

theorem Tree.Shaped.inOrder_symbols {level : Level} {t : Tree} (h : t.Shaped level) :
    t.InOrder t.symbols := by
  induction h with
  | literal hd => exact .literal (read?_fixedDigits hd)
  | negate _ ih => exact .negate ih
  | group _ ih => exact .group ih
  | ofFactor _ ih | ofProduct _ ih => exact ih
  | product _ _ _ ihl ihr | sum _ _ _ ihl ihr => exact .binary ihl ihr

/-- A text of a tree spells its lexemes: a sign stands between any two numbers. -/
theorem Tree.spells_text (t : Tree) : Spells t.text t.symbols := by
  induction t with
  | literal d =>
    have hnumber : IsNumber d.fixedDigits := d.isNumber_fixedDigits
    have htext : (Tree.literal d).text = d.fixedDigits := by
      simp [Tree.text, Tree.symbols, Symbol.chars]
    rw [htext]
    exact .of_isNumber hnumber
  | negate t ih => exact .sign rfl ih
  | group t ih =>
    have htext : (Tree.group t).text = '(' :: (t.text ++ [')']) := by
      simp [Tree.text, Tree.symbols, Symbol.chars]
    rw [htext]
    exact ih.parenthesized
  | binary op l r ihl ihr =>
    have htext : (Tree.binary op l r).text = l.text ++ op.sign :: r.text := by
      simp [Tree.text, Tree.symbols, Symbol.chars]
    have hnone : IsBlanks [] := by decide
    rw [htext]
    exact ihl.operation op hnone hnone ihr

/-! ## Texts and their trees -/

/-- The tree of a text is the one with its lexemes in order, if the limit allows its nesting. -/
theorem ofText_eq_ok_iff {cs : List Char} {limit : Nat} {t : Tree} :
    Tree.ofText cs limit = .ok t
      ↔ ∃ lexemes, Lexeme.scan cs = .ok lexemes ∧ t.Shaped .sum
        ∧ t.InOrder (lexemes.map (·.symbol)) ∧ t.nesting ≤ limit := by
  constructor
  · intro h
    obtain ⟨lexemes, hscan, hparse⟩ := bind_eq_ok_iff.mp h
    obtain ⟨hderives, hlimit⟩ := parse_eq_ok_iff.mp hparse
    have hspells : Spells cs (lexemes.map (·.symbol)) := scan_iff_spells.mp ⟨lexemes, hscan, rfl⟩
    obtain ⟨hshaped, horder⟩ := hderives.shaped hspells.isNumber
    exact ⟨lexemes, hscan, hshaped, horder, hlimit⟩
  · rintro ⟨lexemes, hscan, hshaped, horder, hlimit⟩
    rw [Tree.ofText, hscan]
    exact parse_of_derives (hshaped.derives horder) hlimit

theorem ofText_isOk_iff {cs : List Char} {limit : Nat} :
    (∃ t, Tree.ofText cs limit = .ok t)
      ↔ ∃ lexemes, Lexeme.scan cs = .ok lexemes
        ∧ Sentence limit .sum (lexemes.map (·.symbol)) := by
  simp only [← parse_isOk_iff_sentence, Tree.ofText, bind_eq_ok_iff]
  constructor
  · rintro ⟨t, lexemes, hscan, hparse⟩
    exact ⟨lexemes, hscan, t, hparse⟩
  · rintro ⟨lexemes, hscan, t, hparse⟩
    exact ⟨t, lexemes, hscan, hparse⟩

/-- **The grammar is accepted exactly.** A text has a tree under a limit exactly if its lexemes are
a sentence of the grammar with no more than that many parentheses and minus signs open at once; any
other text has a fault. The tree is the only one of the grammar's shape with these lexemes in order,
and it is the same under all larger limits. Every tree of that shape is the tree of its own text. -/
theorem ofText_exactly (cs : List Char) (limit : Nat) :
    ((∃ t, Tree.ofText cs limit = .ok t)
        ↔ ∃ lexemes, Lexeme.scan cs = .ok lexemes
          ∧ Sentence limit .sum (lexemes.map (·.symbol)))
      ∧ ((¬ ∃ lexemes, Lexeme.scan cs = .ok lexemes
          ∧ Sentence limit .sum (lexemes.map (·.symbol)))
        ↔ ∃ fault : SyntaxFault, Tree.ofText cs limit = .error fault)
      ∧ (∀ t, Tree.ofText cs limit = .ok t → ∃ lexemes, Lexeme.scan cs = .ok lexemes
        ∧ t.Shaped .sum ∧ t.InOrder (lexemes.map (·.symbol))
        ∧ (∀ u : Tree, u.Shaped .sum → u.InOrder (lexemes.map (·.symbol)) → u = t)
        ∧ ∀ larger, limit ≤ larger → Tree.ofText cs larger = .ok t)
      ∧ ∀ t : Tree, t.Shaped .sum → t.nesting ≤ limit → Tree.ofText t.text limit = .ok t := by
  refine ⟨ofText_isOk_iff, ?_, fun t ht => ?_, fun t hshaped hlimit => ?_⟩
  · rw [← ofText_isOk_iff]
    cases Tree.ofText cs limit with
    | ok t => simp
    | error fault => simp
  · obtain ⟨lexemes, hscan, hshaped, horder, hlimit⟩ := ofText_eq_ok_iff.mp ht
    refine ⟨lexemes, hscan, hshaped, horder, fun u hu huorder => ?_, fun larger hlarger => ?_⟩
    · exact (hu.derives huorder).unique (hshaped.derives horder)
    · have hlimit' : t.nesting ≤ larger := Nat.le_trans hlimit hlarger
      exact ofText_eq_ok_iff.mpr ⟨lexemes, hscan, hshaped, horder, hlimit'⟩
  · exact ofText_of_spells t.spells_text (hshaped.derives hshaped.inOrder_symbols) hlimit

/-- A minus binds tighter than a product, two of them may follow each other, and the parentheses and
signs of this text are nested three deep. -/
theorem ofText_exactly_nested :
    let one : Tree := .literal ⟨false, 10, -1⟩
    let t : Tree := .binary .mul (.negate (.group (.binary .sub one (.negate one)))) one
    t.text = "-(1.0--1.0)*1.0".toList ∧ Tree.ofText t.text 3 = .ok t
      ∧ ∀ larger, 3 ≤ larger → Tree.ofText t.text larger = .ok t := by
  intro one t
  have hone : one.Shaped .factor := .literal (by decide)
  have hdifference : (Tree.binary .sub one (.negate one)).Shaped .sum :=
    .sum (Or.inr rfl) (.ofProduct (.ofFactor hone)) (.ofFactor (.negate hone))
  have hshaped : t.Shaped .sum :=
    .ofProduct (.product (Or.inl rfl) (.ofFactor (.negate (.group hdifference))) hone)
  obtain ⟨-, -, hunique, hprinted⟩ := ofText_exactly t.text 3
  have hparsed : Tree.ofText t.text 3 = .ok t := hprinted t hshaped (by decide)
  obtain ⟨lexemes, -, -, -, -, hlarger⟩ := hunique t hparsed
  exact ⟨by decide, hparsed, hlarger⟩

end Tariff.Expression

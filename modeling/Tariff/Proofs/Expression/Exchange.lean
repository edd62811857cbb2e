import Tariff.Proofs.Expression.Grammar

/-!
# Exchanging operands

A number, or a balanced row between parentheses, is a `Block`: where it stands in a row that has a
tree, it is a factor of its own, and another factor may stand in its place without changing how the
rest is grouped (`Derives.around`). The rules of the grammar do not say so at once: they must not
tear a row between parentheses apart. They cannot, because every row of the grammar is `Balanced`,
and no proper beginning of a block is (`Block.pos_of_prefix`).

A block that has a tree itself is an `Atom`. Atoms may be exchanged (`Derives.exchange`), one or any
number of them in a row (`Exchanged`).
-/

namespace Tariff.Expression

open Tariff.Expression.Parser

/-! ## Parentheses are balanced -/

/-- How many more parentheses a row opens than it closes. -/
def balance : List Symbol → Int
  | [] => 0
  | .opening :: row => balance row + 1
  | .closing :: row => balance row - 1
  | .number _ :: row => balance row
  | .operator _ :: row => balance row

@[simp] theorem balance_nil : balance [] = 0 := rfl

@[simp] theorem balance_opening (row : List Symbol) : balance (.opening :: row) = balance row + 1 :=
  rfl

@[simp] theorem balance_closing (row : List Symbol) : balance (.closing :: row) = balance row - 1 :=
  rfl

@[simp] theorem balance_number (cs : List Char) (row : List Symbol) :
    balance (.number cs :: row) = balance row := rfl

@[simp] theorem balance_operator (op : Operator) (row : List Symbol) :
    balance (.operator op :: row) = balance row := rfl

@[simp] theorem balance_append (a b : List Symbol) : balance (a ++ b) = balance a + balance b := by
  induction a with
  | nil => simp
  | cons s a ih =>
    cases s <;> simp only [List.cons_append, balance_opening, balance_closing, balance_number,
      balance_operator, ih] <;> omega

/-- A row closes what it opens, and nowhere more than it has opened. -/
structure Balanced (row : List Symbol) : Prop where
  whole : balance row = 0
  start : ∀ front, front <+: row → 0 ≤ balance front

theorem balanced_number (cs : List Char) : Balanced [.number cs] := by
  refine ⟨rfl, fun front hfront => ?_⟩
  rcases List.prefix_cons_iff.mp hfront with rfl | ⟨rest, rfl, hrest⟩
  · exact Int.le_refl _
  · obtain rfl := List.prefix_nil.mp hrest
    exact Int.le_refl _

theorem Balanced.behind_sign {row : List Symbol} (h : Balanced row) (op : Operator) :
    Balanced (.operator op :: row) := by
  refine ⟨h.whole, fun front hfront => ?_⟩
  rcases List.prefix_cons_iff.mp hfront with rfl | ⟨rest, rfl, hrest⟩
  · exact Int.le_refl _
  · exact h.start rest hrest

/-- Before the last parenthesis is closed, the first one is open. -/
theorem Balanced.pos_of_prefix_group {row front : List Symbol} (h : Balanced row)
    (hfront : front <+: .opening :: (row ++ [.closing])) (hne : front ≠ [])
    (hproper : front ≠ .opening :: (row ++ [.closing])) : 0 < balance front := by
  rcases List.prefix_cons_iff.mp hfront with rfl | ⟨rest, rfl, hrest⟩
  · exact absurd rfl hne
  · rcases List.prefix_concat_iff.mp hrest with rfl | hrest
    · exact absurd rfl hproper
    · have hinner := h.start rest hrest
      rw [balance_opening]
      omega

theorem Balanced.group {row : List Symbol} (h : Balanced row) :
    Balanced (.opening :: (row ++ [.closing])) := by
  have hwhole : balance (.opening :: (row ++ [.closing])) = 0 := by simp [h.whole]
  refine ⟨hwhole, fun front hfront => ?_⟩
  by_cases hne : front = []
  · rw [hne]
    exact Int.le_refl _
  · by_cases hproper : front = .opening :: (row ++ [.closing])
    · exact Int.le_of_eq (by rw [hproper, hwhole])
    · exact Int.le_of_lt (h.pos_of_prefix_group hfront hne hproper)

theorem Balanced.join {a b : List Symbol} (ha : Balanced a) (hb : Balanced b) :
    Balanced (a ++ b) := by
  refine ⟨by rw [balance_append, ha.whole, hb.whole]; rfl, ?_⟩
  rintro front ⟨rest, hsplit⟩
  rcases List.append_eq_append_iff.mp hsplit with ⟨more, rfl, -⟩ | ⟨more, rfl, hmore⟩
  · exact ha.start front (List.prefix_append front more)
  · have hstart := hb.start more ⟨rest, hmore.symm⟩
    rw [balance_append, ha.whole]
    omega

/-- **Every row of the grammar is balanced.** -/
theorem Derives.balanced {level : Level} {t : Tree} {row : List Symbol}
    (h : Derives level t row) : Balanced row := by
  induction h with
  | number cs => exact balanced_number cs
  | negate _ ih => exact ih.behind_sign .sub
  | group _ ih => exact ih.group
  | ofFactor _ ih | ofProduct _ ih => exact ih
  | product _ _ _ ihl ihr | sum _ _ _ ihl ihr => exact ihl.join (ihr.behind_sign _)

/-! ## Blocks -/

/-- A row that holds together: a number, or a balanced row between parentheses. -/
inductive Block : List Symbol → Prop where
  | number (cs : List Char) : Block [.number cs]
  | group {row : List Symbol} (inner : Balanced row) : Block (.opening :: (row ++ [.closing]))

namespace Block

variable {block : List Symbol}

theorem balance_eq_zero (h : Block block) : balance block = 0 := by
  cases h with
  | number cs => rfl
  | group inner => exact inner.group.whole

theorem ne_nil (h : Block block) : block ≠ [] := by
  cases h <;> simp

/-- A block has no balanced beginning. -/
theorem pos_of_prefix {front : List Symbol} (h : Block block) (hfront : front <+: block)
    (hne : front ≠ []) (hproper : front ≠ block) : 0 < balance front := by
  cases h with
  | number cs =>
    rcases List.prefix_cons_iff.mp hfront with rfl | ⟨rest, rfl, hrest⟩
    · exact absurd rfl hne
    · obtain rfl := List.prefix_nil.mp hrest
      exact absurd rfl hproper
  | group inner => exact inner.pos_of_prefix_group hfront hne hproper

/-- A block does not start with a sign. -/
theorem not_signed {rest after : List Symbol} {op : Operator} (h : Block block) :
    .operator op :: rest ≠ block ++ after := by
  cases h <;> simp

/-- A block stands on one side of an operation. -/
theorem beside {left right before after : List Symbol} {op : Operator} (hblock : Block block)
    (hleft : Balanced left) (h : left ++ .operator op :: right = before ++ (block ++ after)) :
    (∃ rest, left = before ++ (block ++ rest) ∧ after = rest ++ .operator op :: right)
      ∨ ∃ rest, before = left ++ .operator op :: rest ∧ right = rest ++ (block ++ after) := by
  rcases List.append_eq_append_iff.mp h with ⟨more, rfl, hmore⟩ | ⟨more, rfl, hmore⟩
  · -- the left side ends before the block starts
    cases more with
    | nil => exact absurd hmore hblock.not_signed
    | cons s rest =>
      obtain ⟨rfl, hright⟩ := List.cons.inj hmore
      exact Or.inr ⟨rest, rfl, hright⟩
  · rcases List.append_eq_append_iff.mp hmore.symm with ⟨rest, rfl, hrest⟩ | ⟨rest, rfl, hrest⟩
    · by_cases hend : rest = []
      · subst hend
        rw [List.append_nil] at hblock ⊢
        exact Or.inl ⟨[], by rw [List.append_nil], hrest.symm⟩
      · by_cases hstart : more = []
        · subst hstart
          exact absurd hrest hblock.not_signed
        · -- the left side would end inside the block and leave a parenthesis open
          have hopen : 0 < balance more :=
            hblock.pos_of_prefix (List.prefix_append more rest) hstart (by simpa using hend)
          have hbefore : 0 ≤ balance before := hleft.start before (List.prefix_append before more)
          have hwhole := hleft.whole
          rw [balance_append] at hwhole
          omega
    · exact Or.inl ⟨rest, rfl, hrest⟩

/-- A block within a row between parentheses is that row itself, or stands between them. -/
theorem within {inner before after : List Symbol} (hblock : Block block)
    (hinner : Balanced inner) (h : .opening :: (inner ++ [.closing]) = before ++ (block ++ after)) :
    (before = [] ∧ after = [])
      ∨ ∃ front rest, before = .opening :: front ∧ after = rest ++ [.closing]
        ∧ inner = front ++ (block ++ rest) := by
  have hwhole := hinner.group.whole
  rw [h, balance_append, balance_append, hblock.balance_eq_zero] at hwhole
  cases before with
  | nil =>
    -- a proper beginning of the row would not be balanced
    have hprefix : block <+: .opening :: (inner ++ [.closing]) := ⟨after, by rw [h]; rfl⟩
    by_cases hall : block = .opening :: (inner ++ [.closing])
    · rw [hall] at h
      exact Or.inl ⟨rfl, by simpa using h⟩
    · have hopen := hinner.pos_of_prefix_group hprefix hblock.ne_nil hall
      rw [hblock.balance_eq_zero] at hopen
      omega
  | cons s front =>
    obtain ⟨rfl, hrow⟩ := List.cons.inj h
    change inner ++ [.closing] = front ++ (block ++ after) at hrow
    rcases List.eq_nil_or_concat after with rfl | ⟨rest, s, rfl⟩
    · -- what stands before the block would leave the first parenthesis open
      have hprefix : .opening :: front <+: .opening :: (inner ++ [.closing]) :=
        ⟨block ++ [], h.symm⟩
      have hproper : Symbol.opening :: front ≠ .opening :: (inner ++ [.closing]) := by
        rw [hrow]
        simpa using hblock.ne_nil
      have hopen := hinner.pos_of_prefix_group hprefix (List.cons_ne_nil _ _) hproper
      rw [balance_nil] at hwhole
      omega
    · rw [List.concat_eq_append, ← List.append_assoc, ← List.append_assoc] at hrow
      obtain ⟨hinner, hlast⟩ := List.append_inj' hrow rfl
      obtain rfl : Symbol.closing = s := by simpa using hlast
      exact Or.inr ⟨front, rest, rfl, List.concat_eq_append, by rw [hinner, List.append_assoc]⟩

end Block

/-! ## What stands around a block -/

/-- A tree with a hole in the place of one operand. -/
inductive Context where
  /-- The operand is the whole tree. -/
  | hole
  /-- The operand stands behind a minus. -/
  | negate (inner : Context)
  /-- The operand stands between parentheses. -/
  | group (inner : Context)
  /-- The operand stands on the left side of an operation. -/
  | left (op : Operator) (inner : Context) (r : Tree)
  /-- The operand stands on the right side of an operation. -/
  | right (op : Operator) (l : Tree) (inner : Context)
  deriving DecidableEq, Repr

/-- The tree with an operand in the hole. -/
def Context.plug : Context → Tree → Tree
  | hole, t => t
  | negate c, t => .negate (c.plug t)
  | group c, t => .group (c.plug t)
  | left op c r, t => .binary op (c.plug t) r
  | right op l c, t => .binary op l (c.plug t)

/-- An operand is nested no deeper than the tree it is part of. -/
theorem Context.nesting_le_plug (c : Context) (t : Tree) : t.nesting ≤ (c.plug t).nesting := by
  induction c with
  | hole => exact Nat.le_refl _
  | negate c ih | group c ih => exact Nat.le_succ_of_le ih
  | left op c r ih => exact Nat.le_trans ih (Nat.le_max_left _ _)
  | right op l c ih => exact Nat.le_trans ih (Nat.le_max_right _ _)

/-- **A block of a derived row is a factor**, and any other factor may stand in its place: what is
grouped around it stays the same. -/
theorem Derives.around {level : Level} {t : Tree} {row before block after : List Symbol}
    (h : Derives level t row) (hblock : Block block) (hrow : row = before ++ (block ++ after)) :
    ∃ (c : Context) (v : Tree), Derives .factor v block ∧ t = c.plug v
      ∧ ∀ {w other}, Derives .factor w other →
        Derives level (c.plug w) (before ++ (other ++ after)) := by
  induction h generalizing before after with
  | number cs =>
    cases before with
    | nil =>
      obtain ⟨s, rest, rfl⟩ := List.exists_cons_of_ne_nil hblock.ne_nil
      obtain ⟨rfl, hnil⟩ := List.cons.inj hrow
      obtain ⟨rfl, rfl⟩ : rest = [] ∧ after = [] := by simpa using hnil
      exact ⟨.hole, _, .number cs, rfl, fun hw => by simpa [Context.plug] using hw⟩
    | cons s front =>
      obtain ⟨-, hnil, -⟩ : front = [] ∧ block = [] ∧ after = [] := by
        simpa using (List.cons.inj hrow).2.symm
      exact absurd hnil hblock.ne_nil
  | negate inner ih =>
    cases before with
    | nil => exact absurd hrow hblock.not_signed
    | cons s front =>
      obtain ⟨rfl, hinner⟩ := List.cons.inj hrow
      obtain ⟨c, v, hv, rfl, hplug⟩ := ih hinner
      exact ⟨.negate c, v, hv, rfl, fun hw => .negate (hplug hw)⟩
  | @group t symbols inner ih =>
    rcases hblock.within inner.balanced hrow with ⟨rfl, rfl⟩ | ⟨front, rest, rfl, rfl, hinner⟩
    · have hall : .opening :: (symbols ++ [.closing]) = block := by simpa using hrow
      exact ⟨.hole, _, hall ▸ .group inner, rfl, fun hw => by simpa [Context.plug] using hw⟩
    · obtain ⟨c, v, hv, rfl, hplug⟩ := ih hinner
      refine ⟨.group c, v, hv, rfl, fun hw => ?_⟩
      have hgroup := Derives.group (hplug hw)
      rw [List.append_assoc, List.append_assoc] at hgroup
      exact hgroup
  | ofFactor _ ih =>
    obtain ⟨c, v, hv, rfl, hplug⟩ := ih hrow
    exact ⟨c, v, hv, rfl, fun hw => .ofFactor (hplug hw)⟩
  | ofProduct _ ih =>
    obtain ⟨c, v, hv, rfl, hplug⟩ := ih hrow
    exact ⟨c, v, hv, rfl, fun hw => .ofProduct (hplug hw)⟩
  | @product op l r ls rs hop left right ihl ihr =>
    rcases hblock.beside left.balanced hrow with ⟨rest, hleft, rfl⟩ | ⟨rest, rfl, hright⟩
    · obtain ⟨c, v, hv, rfl, hplug⟩ := ihl hleft
      refine ⟨.left op c r, v, hv, rfl, fun hw => ?_⟩
      have hproduct := Derives.product hop (hplug hw) right
      rw [List.append_assoc, List.append_assoc] at hproduct
      exact hproduct
    · obtain ⟨c, v, hv, rfl, hplug⟩ := ihr hright
      refine ⟨.right op l c, v, hv, rfl, fun hw => ?_⟩
      rw [List.append_assoc]
      exact .product hop left (hplug hw)
  | @sum op l r ls rs hop left right ihl ihr =>
    rcases hblock.beside left.balanced hrow with ⟨rest, hleft, rfl⟩ | ⟨rest, rfl, hright⟩
    · obtain ⟨c, v, hv, rfl, hplug⟩ := ihl hleft
      refine ⟨.left op c r, v, hv, rfl, fun hw => ?_⟩
      have hsum := Derives.sum hop (hplug hw) right
      rw [List.append_assoc, List.append_assoc] at hsum
      exact hsum
    · obtain ⟨c, v, hv, rfl, hplug⟩ := ihr hright
      refine ⟨.right op l c, v, hv, rfl, fun hw => ?_⟩
      rw [List.append_assoc]
      exact .sum hop left (hplug hw)

/-! ## Exchanging atoms -/

/-- An operand that holds together: a number, or a row with a tree between parentheses. -/
inductive Atom : List Symbol → Prop where
  | number (cs : List Char) : Atom [.number cs]
  | group {t : Tree} {row : List Symbol} (inner : Derives .sum t row) :
      Atom (.opening :: (row ++ [.closing]))

theorem Atom.exists_tree {row : List Symbol} (h : Atom row) : ∃ t, Derives .factor t row := by
  cases h with
  | number cs => exact ⟨_, .number cs⟩
  | group inner => exact ⟨_, .group inner⟩

theorem Atom.block {row : List Symbol} (h : Atom row) : Block row := by
  cases h with
  | number cs => exact .number cs
  | group inner => exact .group inner.balanced

/-- A text that spells an atom. -/
def SpellsAtom (cs : List Char) : Prop :=
  ∃ row, Spells cs row ∧ Atom row

/-- **An atom may be exchanged for another one.** -/
theorem Derives.exchange {level : Level} {t : Tree} {row before atom other after : List Symbol}
    (h : Derives level t row) (hatom : Atom atom) (hother : Atom other)
    (hrow : row = before ++ (atom ++ after)) :
    ∃ u, Derives level u (before ++ (other ++ after)) := by
  obtain ⟨c, -, -, -, hplug⟩ := h.around hatom.block hrow
  obtain ⟨w, hw⟩ := hother.exists_tree
  exact ⟨c.plug w, hplug hw⟩

/-- Two rows that differ in some atoms only. -/
inductive Exchanged : List Symbol → List Symbol → Prop where
  | nil : Exchanged [] []
  | symbol (s : Symbol) {a b : List Symbol} (rest : Exchanged a b) : Exchanged (s :: a) (s :: b)
  | atom {x y a b : List Symbol} (hx : Atom x) (hy : Atom y) (rest : Exchanged a b) :
      Exchanged (x ++ a) (y ++ b)

theorem Exchanged.refl (row : List Symbol) : Exchanged row row := by
  induction row with
  | nil => exact .nil
  | cons s row ih => exact .symbol s ih

theorem Exchanged.append {a a' b b' : List Symbol} (ha : Exchanged a a') (hb : Exchanged b b') :
    Exchanged (a ++ b) (a' ++ b') := by
  induction ha with
  | nil => exact hb
  | symbol s _ ih => exact .symbol s ih
  | atom hx hy _ ih =>
    rw [List.append_assoc, List.append_assoc]
    exact .atom hx hy ih

theorem Exchanged.ofAtoms {x y : List Symbol} (hx : Atom x) (hy : Atom y) : Exchanged x y := by
  have hxy := Exchanged.atom hx hy .nil
  rwa [List.append_nil, List.append_nil] at hxy

/-- Atoms are exchanged one after the other, from the left. -/
theorem Exchanged.derives {a b front : List Symbol} {t : Tree} (h : Exchanged a b)
    (hrow : Derives .sum t (front ++ a)) : ∃ u, Derives .sum u (front ++ b) := by
  induction h generalizing front t with
  | nil => exact ⟨t, hrow⟩
  | @symbol s a b _ ih =>
    have hsplit : ∀ rest, front ++ s :: rest = front ++ [s] ++ rest := by simp
    rw [hsplit] at hrow ⊢
    exact ih hrow
  | @atom x y a b hx hy _ ih =>
    obtain ⟨u, hu⟩ := hrow.exchange hx hy rfl
    rw [← List.append_assoc] at hu ⊢
    exact ih hu

end Tariff.Expression

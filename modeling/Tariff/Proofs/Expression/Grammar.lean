import Tariff.Expression.Parser
import Tariff.Proofs.Expression.Lexing

/-!
# The grammar and the parser

`Derives level t symbols` is the grammar: `t` is the tree of a row of symbols read as a factor, a
product or a sum. The parser never builds a derivation; it keeps what is open on a stack. The two
are tied together in both directions:

* `parse_of_derives` — a derived row is parsed to its tree, if the limit allows its nesting;
* `derives_of_parse` — what is parsed is derived.

Together with the scan this says when a text has a tree (`ofText_of_spells`, `spells_of_ofText`).
The first is a run lemma by induction on the derivation, for every stack that the row may stand on.
The second is an invariant of the parser's steps: `Reads` says which symbols have been read in a
state, as a row of open operations followed by the operand that is complete.
-/

namespace Tariff.Expression

open Tariff.Expression.Parser

/-! ## Derivations -/

/-- The levels of the grammar. -/
inductive Level where
  /-- A number, a parenthesis or a minus with its factor. -/
  | factor
  /-- Factors with multiplications and divisions between them. -/
  | product
  /-- Products with additions and subtractions between them. -/
  | sum
  deriving DecidableEq, Repr

/-- The tree of a row of symbols at a level of the grammar. Operations of one level are grouped from
the left. -/
inductive Derives : Level → Tree → List Symbol → Prop where
  | number (cs : List Char) : Derives .factor (literal cs) [.number cs]
  | negate {t : Tree} {symbols : List Symbol} (inner : Derives .factor t symbols) :
      Derives .factor (.negate t) (.operator .sub :: symbols)
  | group {t : Tree} {symbols : List Symbol} (inner : Derives .sum t symbols) :
      Derives .factor (.group t) (.opening :: (symbols ++ [.closing]))
  | ofFactor {t : Tree} {symbols : List Symbol} (inner : Derives .factor t symbols) :
      Derives .product t symbols
  | product {op : Operator} {l r : Tree} {ls rs : List Symbol} (hop : op = .mul ∨ op = .div)
      (left : Derives .product l ls) (right : Derives .factor r rs) :
      Derives .product (.binary op l r) (ls ++ .operator op :: rs)
  | ofProduct {t : Tree} {symbols : List Symbol} (inner : Derives .product t symbols) :
      Derives .sum t symbols
  | sum {op : Operator} {l r : Tree} {ls rs : List Symbol} (hop : op = .add ∨ op = .sub)
      (left : Derives .sum l ls) (right : Derives .product r rs) :
      Derives .sum (.binary op l r) (ls ++ .operator op :: rs)

/-- How many parentheses and minus signs are open at once in a tree, at most. -/
def Tree.nesting : Tree → Nat
  | literal _ => 0
  | negate t => t.nesting + 1
  | group t => t.nesting + 1
  | binary _ l r => max l.nesting r.nesting

/-- Every parenthesis and every minus is a symbol of its own. -/
theorem Derives.nesting_le_length {level : Level} {t : Tree} {symbols : List Symbol}
    (h : Derives level t symbols) : t.nesting ≤ symbols.length := by
  induction h with
  | number cs => exact Nat.zero_le _
  | negate _ ih => exact Nat.succ_le_succ ih
  | group _ ih => simp only [Tree.nesting, List.length_cons, List.length_append]; omega
  | ofFactor _ ih => exact ih
  | product _ _ _ ihl ihr =>
    simp only [Tree.nesting, List.length_cons, List.length_append]
    omega
  | ofProduct _ ih => exact ih
  | sum _ _ _ ihl ihr =>
    simp only [Tree.nesting, List.length_cons, List.length_append]
    omega

/-! ## Stacks that a row may stand on -/

/-- Neither a minus nor a product waits for the next factor. -/
def AwaitsProduct : List Pending → Prop
  | .negation :: _ => False
  | .product .. :: _ => False
  | _ => True

/-- Nothing waits for the next operand but a parenthesis. -/
def AwaitsSum : List Pending → Prop
  | [] => True
  | .group _ :: _ => True
  | _ => False

theorem AwaitsSum.awaitsProduct {stack : List Pending} (h : AwaitsSum stack) :
    AwaitsProduct stack := by
  cases stack with
  | nil => trivial
  | cons p stack => cases p <;> trivial

theorem closeFactor_of_awaitsProduct {stack : List Pending} (h : AwaitsProduct stack) (t : Tree) :
    closeFactor stack t = (stack, t) := by
  cases stack with
  | nil => rfl
  | cons p stack => cases p <;> first | rfl | exact h.elim

theorem closeProduct_of_awaitsSum {stack : List Pending} (h : AwaitsSum stack) (t : Tree) :
    closeProduct stack t = (stack, t) := by
  cases stack with
  | nil => rfl
  | cons p stack => cases p <;> first | rfl | exact h.elim

theorem afterFactor_of_awaitsProduct {stack : List Pending} (h : AwaitsProduct stack) (t : Tree) :
    afterFactor stack t = .after stack t := by
  rw [afterFactor, closeFactor_of_awaitsProduct h]

/-- There is room for one more parenthesis or minus. -/
theorem enter_of_lt {limit : Nat} {stack : List Pending} (h : openCount stack < limit)
    (pending : Pending) (place : Nat) :
    enter limit stack pending place = .ok (.before (pending :: stack)) := by
  rw [enter, if_pos h]

/-! ## A derived row is parsed -/

/-- Where the parser gets to with a row of lexemes, from every stack that it may stand on: a factor
closes what waits for it, a product leaves the stack as it is, and a sum leaves it up to one sum
that its last product still has to close. -/
def Runs (limit : Nat) : Level → Tree → List Lexeme → Prop
  | .factor, t, lexemes => ∀ stack, openCount stack + t.nesting ≤ limit →
      lexemes.foldlM (step limit) (.before stack) = .ok (afterFactor stack t)
  | .product, t, lexemes => ∀ stack, AwaitsProduct stack → openCount stack + t.nesting ≤ limit →
      lexemes.foldlM (step limit) (.before stack) = .ok (.after stack t)
  | .sum, t, lexemes => ∀ stack, AwaitsSum stack → openCount stack + t.nesting ≤ limit →
      ∃ stack' t', lexemes.foldlM (step limit) (.before stack) = .ok (.after stack' t')
        ∧ closeProduct stack' t' = (stack, t)

theorem foldlM_append_ok {limit : Nat} {a b : List Lexeme} {s s' : ParseState}
    (ha : a.foldlM (step limit) s = .ok s') :
    (a ++ b).foldlM (step limit) s = b.foldlM (step limit) s' := by
  rw [List.foldlM_append, ha]
  rfl

theorem foldlM_cons_ok {limit : Nat} {l : Lexeme} {b : List Lexeme} {s s' : ParseState}
    (hl : step limit s l = .ok s') :
    (l :: b).foldlM (step limit) s = b.foldlM (step limit) s' := by
  rw [List.foldlM_cons, hl]
  rfl

/-- The lexemes of two rows with a symbol between them. -/
theorem exists_lexemes_append_cons {lexemes : List Lexeme} {ls rs : List Symbol} {s : Symbol}
    (h : lexemes.map (·.symbol) = ls ++ s :: rs) :
    ∃ a place b, lexemes = a ++ ⟨s, place⟩ :: b ∧ a.map (·.symbol) = ls
      ∧ b.map (·.symbol) = rs := by
  obtain ⟨a, rest, rfl, ha, hrest⟩ := List.map_eq_append_iff.mp h
  obtain ⟨l, b, rfl, hl, hb⟩ := List.map_eq_cons_iff.mp hrest
  exact ⟨a, l.place, b, by rw [← hl], ha, hb⟩

theorem Derives.runs {limit : Nat} {level : Level} {t : Tree} {symbols : List Symbol}
    (h : Derives level t symbols) {lexemes : List Lexeme}
    (hlexemes : lexemes.map (·.symbol) = symbols) : Runs limit level t lexemes := by
  induction h generalizing lexemes with
  | number cs =>
    intro stack _
    obtain ⟨l, rest, rfl, hl, hrest⟩ := List.map_eq_cons_iff.mp hlexemes
    obtain rfl := List.map_eq_nil_iff.mp hrest
    obtain ⟨symbol, place⟩ := l
    cases hl
    rfl
  | @negate t symbols _ ih =>
    intro stack hroom
    obtain ⟨l, rest, rfl, hl, hrest⟩ := List.map_eq_cons_iff.mp hlexemes
    obtain ⟨symbol, place⟩ := l
    cases hl
    rw [Tree.nesting] at hroom
    have henter : step limit (.before stack) ⟨.operator .sub, place⟩
        = .ok (.before (.negation :: stack)) := enter_of_lt (by omega) _ _
    have hopen : openCount (.negation :: stack) = openCount stack + 1 := by simp [openCount]
    rw [foldlM_cons_ok henter, ih hrest (.negation :: stack) (by omega)]
    rfl
  | @group t symbols _ ih =>
    intro stack hroom
    rw [← List.cons_append] at hlexemes
    obtain ⟨front, close, rest, rfl, hfront, hrest⟩ := exists_lexemes_append_cons hlexemes
    obtain rfl := List.map_eq_nil_iff.mp hrest
    obtain ⟨l, inner, rfl, hl, hinner⟩ := List.map_eq_cons_iff.mp hfront
    obtain ⟨symbol, place⟩ := l
    cases hl
    rw [Tree.nesting] at hroom
    have henter : step limit (.before stack) ⟨.opening, place⟩
        = .ok (.before (.group place :: stack)) := enter_of_lt (by omega) _ _
    have hopen : openCount (.group place :: stack) = openCount stack + 1 := by simp [openCount]
    obtain ⟨stack', t', hrun, hclose⟩ := ih hinner (.group place :: stack) trivial (by omega)
    have hstep : step limit (.after stack' t') ⟨.closing, close⟩
        = .ok (afterFactor stack (.group t)) := by
      simp only [step, hclose]
    rw [List.cons_append, foldlM_cons_ok henter, foldlM_append_ok hrun, foldlM_cons_ok hstep]
    rfl
  | ofFactor _ ih =>
    intro stack hstack hroom
    rw [ih hlexemes stack hroom, afterFactor_of_awaitsProduct hstack]
  | @product op l r ls rs hop _ _ ihl ihr =>
    intro stack hstack hroom
    obtain ⟨a, place, b, rfl, ha, hb⟩ := exists_lexemes_append_cons hlexemes
    rw [Tree.nesting] at hroom
    have hstep : step limit (.after stack l) ⟨.operator op, place⟩
        = .ok (.before (.product l op :: stack)) := by
      rcases hop with rfl | rfl <;> rfl
    have hopen : openCount (.product l op :: stack) = openCount stack := by simp [openCount]
    rw [foldlM_append_ok (ihl ha stack hstack (by omega)), foldlM_cons_ok hstep,
      ihr hb (.product l op :: stack) (by omega)]
    rfl
  | ofProduct _ ih =>
    intro stack hstack hroom
    exact ⟨stack, _, ih hlexemes stack hstack.awaitsProduct hroom,
      closeProduct_of_awaitsSum hstack _⟩
  | @sum op l r ls rs hop _ _ ihl ihr =>
    intro stack hstack hroom
    obtain ⟨a, place, b, rfl, ha, hb⟩ := exists_lexemes_append_cons hlexemes
    rw [Tree.nesting] at hroom
    obtain ⟨stack', l', hrun, hclose⟩ := ihl ha stack hstack (by omega)
    have hstep : step limit (.after stack' l') ⟨.operator op, place⟩
        = .ok (.before (.sum l op :: stack)) := by
      rcases hop with rfl | rfl <;> simp only [step, hclose]
    have hopen : openCount (.sum l op :: stack) = openCount stack := by simp [openCount]
    refine ⟨.sum l op :: stack, r, ?_, rfl⟩
    rw [foldlM_append_ok hrun, foldlM_cons_ok hstep]
    exact ihr hb (.sum l op :: stack) trivial (by omega)

/-- Where nothing is open, the operand that is complete is the tree. -/
theorem finish_of_closeProduct {stack : List Pending} {t t' : Tree}
    (h : closeProduct stack t' = ([], t)) : finish (.after stack t') = .ok t := by
  cases stack with
  | nil =>
    cases h
    rfl
  | cons p stack =>
    cases p with
    | sum l op =>
      obtain ⟨rfl, rfl⟩ : stack = [] ∧ Tree.binary op l t' = t := by simpa [closeProduct] using h
      rfl
    | negation => cases h
    | group place => cases h
    | product l op => cases h

/-- **A derived row is parsed to its tree**, if the limit allows its nesting. -/
theorem parse_of_derives {limit : Nat} {t : Tree} {lexemes : List Lexeme}
    (h : Derives .sum t (lexemes.map (·.symbol))) (hlimit : t.nesting ≤ limit) :
    parse limit lexemes = .ok t := by
  obtain ⟨stack, t', hrun, hclose⟩ :=
    h.runs rfl [] trivial (by simpa [openCount] using hlimit)
  have hne : lexemes ≠ [] := by
    rintro rfl
    cases hrun
  rw [parse, if_neg (by simpa using hne), hrun]
  exact finish_of_closeProduct hclose

/-! ## What is parsed is derived -/

/-- The symbols that leave a stack of open operations behind. What may stand on what is part of it:
a product does not wait below a product, nor a sum below a sum. -/
inductive Opens : List Pending → List Symbol → Prop where
  | start : Opens [] []
  | negation {stack : List Pending} {symbols : List Symbol} (below : Opens stack symbols) :
      Opens (.negation :: stack) (symbols ++ [.operator .sub])
  | group {stack : List Pending} {symbols : List Symbol} {place : Nat}
      (below : Opens stack symbols) : Opens (.group place :: stack) (symbols ++ [.opening])
  | product {stack : List Pending} {symbols ls : List Symbol} {l : Tree} {op : Operator}
      (hop : op = .mul ∨ op = .div) (hstack : AwaitsProduct stack) (below : Opens stack symbols)
      (left : Derives .product l ls) :
      Opens (.product l op :: stack) (symbols ++ (ls ++ [.operator op]))
  | sum {stack : List Pending} {symbols ls : List Symbol} {l : Tree} {op : Operator}
      (hop : op = .add ∨ op = .sub) (hstack : AwaitsSum stack) (below : Opens stack symbols)
      (left : Derives .sum l ls) :
      Opens (.sum l op :: stack) (symbols ++ (ls ++ [.operator op]))

/-- The symbols that have been read in a state: what is open, and after an operand also the product
that it completes. -/
def Reads : ParseState → List Symbol → Prop
  | .before stack, symbols => Opens stack symbols
  | .after stack t, symbols => AwaitsProduct stack ∧
      ∃ below own, Opens stack below ∧ Derives .product t own ∧ symbols = below ++ own

/-- A complete factor closes the minus signs and the product that wait for it. -/
theorem reads_afterFactor {stack : List Pending} {symbols own : List Symbol} {t : Tree}
    (hstack : Opens stack symbols) (ht : Derives .factor t own) :
    Reads (afterFactor stack t) (symbols ++ own) := by
  induction hstack generalizing t own with
  | start => exact ⟨trivial, [], own, .start, .ofFactor ht, rfl⟩
  | negation below ih =>
    have hreads := ih (.negate ht)
    rw [List.append_assoc]
    exact hreads
  | @group stack symbols place below _ =>
    exact ⟨trivial, symbols ++ [.opening], own, .group below, .ofFactor ht, rfl⟩
  | @product stack symbols ls l op hop hstack below left _ =>
    refine ⟨hstack, symbols, ls ++ .operator op :: own, below, .product hop left ht, ?_⟩
    simp only [List.append_assoc, List.cons_append, List.nil_append]
  | @sum stack symbols ls l op hop hstack below left _ =>
    exact ⟨trivial, _, own, .sum hop hstack below left, .ofFactor ht, rfl⟩

/-- A complete product closes the sum that waits for it. -/
theorem opens_closeProduct {stack : List Pending} {symbols own : List Symbol} {t : Tree}
    (hawait : AwaitsProduct stack) (hstack : Opens stack symbols) (ht : Derives .product t own) :
    ∃ below sum, AwaitsSum (closeProduct stack t).1 ∧ Opens (closeProduct stack t).1 below
      ∧ Derives .sum (closeProduct stack t).2 sum ∧ symbols ++ own = below ++ sum := by
  cases hstack with
  | start => exact ⟨[], own, trivial, .start, .ofProduct ht, rfl⟩
  | negation => exact hawait.elim
  | @group stack symbols place below =>
    exact ⟨symbols ++ [Symbol.opening], own, trivial, .group below, .ofProduct ht, rfl⟩
  | product => exact hawait.elim
  | @sum stack symbols ls l op hop hstack below left =>
    refine ⟨symbols, ls ++ .operator op :: own, hstack, below, .sum hop left ht, ?_⟩
    simp only [List.append_assoc, List.cons_append, List.nil_append]

/-- **A step reads one symbol.** -/
theorem Reads.step {limit : Nat} {state state' : ParseState} {symbols : List Symbol} {l : Lexeme}
    (h : Reads state symbols) (hstep : Parser.step limit state l = .ok state') :
    Reads state' (symbols ++ [l.symbol]) := by
  obtain ⟨symbol, place⟩ := l
  cases state with
  | before stack =>
    cases symbol with
    | number cs =>
      cases hstep
      exact reads_afterFactor h (.number cs)
    | opening =>
      simp only [Parser.step, enter] at hstep
      split at hstep
      · cases hstep
        exact .group h
      · cases hstep
    | closing => cases hstep
    | operator op =>
      cases op with
      | sub =>
        simp only [Parser.step, enter] at hstep
        split at hstep
        · cases hstep
          exact .negation h
        · cases hstep
      | add | mul | div => cases hstep
  | after stack t =>
    obtain ⟨hawait, below, own, hstack, ht, rfl⟩ := h
    cases symbol with
    | number cs | opening =>
      simp only [Parser.step] at hstep
      split at hstep <;> cases hstep
    | closing =>
      obtain ⟨below', sum, -, hstack', ht', heq⟩ := opens_closeProduct hawait hstack ht
      simp only [Parser.step] at hstep
      split at hstep
      · next opened rest t' hclose =>
        rw [hclose] at hstack' ht'
        cases hstep
        cases hstack' with
        | @group _ symbols _ hrest =>
          have hreads := reads_afterFactor hrest (.group ht')
          rw [heq, List.append_assoc, List.append_assoc]
          exact hreads
      · cases hstep
    | operator op =>
      cases op with
      | mul | div =>
        cases hstep
        show Opens _ _
        rw [List.append_assoc]
        exact .product (by simp) hawait hstack ht
      | add | sub =>
        obtain ⟨below', sum, hawait', hstack', ht', heq⟩ := opens_closeProduct hawait hstack ht
        cases hstep
        show Opens _ _
        rw [heq, List.append_assoc]
        exact .sum (by simp) hawait' hstack' ht'

/-- A run reads its symbols. -/
theorem Reads.run {limit : Nat} {state state' : ParseState} {symbols : List Symbol}
    {lexemes : List Lexeme} (h : Reads state symbols)
    (hrun : lexemes.foldlM (Parser.step limit) state = .ok state') :
    Reads state' (symbols ++ lexemes.map (·.symbol)) := by
  induction lexemes generalizing state symbols with
  | nil =>
    cases hrun
    rw [List.map_nil, List.append_nil]
    exact h
  | cons l lexemes ih =>
    rw [List.foldlM_cons] at hrun
    obtain ⟨next, hstep, hrest⟩ := bind_eq_ok_iff.mp hrun
    have hreads := ih (h.step hstep) hrest
    rw [List.append_assoc] at hreads
    exact hreads

/-- Where no parenthesis is open, what has been read is the tree. -/
theorem Reads.finish {state : ParseState} {symbols : List Symbol} {t : Tree}
    (h : Reads state symbols) (hfinish : Parser.finish state = .ok t) : Derives .sum t symbols := by
  cases state with
  | before stack => cases hfinish
  | after stack u =>
    obtain ⟨hawait, below, own, hstack, hu, rfl⟩ := h
    simp only [Parser.finish] at hfinish
    split at hfinish
    · cases hfinish
    · next hnone =>
      cases hfinish
      -- without an open parenthesis the stack is empty, or holds the sum that is closed last
      cases hstack with
      | start => exact .ofProduct hu
      | negation => exact hawait.elim
      | group => cases hnone
      | product => exact hawait.elim
      | @sum stack symbols ls l op hop hawaitSum hrest left =>
        cases hrest with
        | start =>
          rw [List.nil_append, List.append_assoc]
          exact .sum hop left hu
        | group => cases hnone
        | negation | product | sum => exact hawaitSum.elim

/-- **What is parsed is derived.** -/
theorem derives_of_parse {limit : Nat} {t : Tree} {lexemes : List Lexeme}
    (h : parse limit lexemes = .ok t) : Derives .sum t (lexemes.map (·.symbol)) := by
  unfold parse at h
  split at h
  · cases h
  · obtain ⟨state, hrun, hfinish⟩ := bind_eq_ok_iff.mp h
    have hstart : Reads (.before []) [] := .start
    exact (hstart.run hrun).finish hfinish

/-! ## Trees of texts -/

/-- A text that spells a derived row has its tree, under every limit that allows its nesting. -/
theorem ofText_of_spells {cs : List Char} {symbols : List Symbol} {t : Tree} {limit : Nat}
    (hspells : Spells cs symbols) (hderives : Derives .sum t symbols) (hlimit : t.nesting ≤ limit) :
    Tree.ofText cs limit = .ok t := by
  obtain ⟨lexemes, hscan, rfl⟩ := scan_iff_spells.mpr hspells
  rw [Tree.ofText, hscan]
  exact parse_of_derives hderives hlimit

/-- A text that has a tree under some limit spells a row that the tree is derived from. -/
theorem spells_of_ofText {cs : List Char} {t : Tree} {limit : Nat}
    (h : Tree.ofText cs limit = .ok t) :
    ∃ symbols, Spells cs symbols ∧ Derives .sum t symbols := by
  obtain ⟨lexemes, hscan, hparse⟩ := bind_eq_ok_iff.mp h
  exact ⟨_, scan_iff_spells.mp ⟨lexemes, hscan, rfl⟩, derives_of_parse hparse⟩

/-- The nesting of a text: how many parentheses and minus signs are open at once in it, at most. No
text has more of them than characters, so the limit its tree is read with allows every nesting. -/
def textNesting (cs : List Char) : Nat :=
  match Tree.ofText cs cs.length with
  | .ok t => t.nesting
  | .error _ => 0

theorem textNesting_of_spells {cs : List Char} {symbols : List Symbol} {t : Tree}
    (hspells : Spells cs symbols) (hderives : Derives .sum t symbols) :
    textNesting cs = t.nesting := by
  have hlimit : t.nesting ≤ cs.length :=
    Nat.le_trans hderives.nesting_le_length hspells.length_le
  rw [textNesting, ofText_of_spells hspells hderives hlimit]

end Tariff.Expression

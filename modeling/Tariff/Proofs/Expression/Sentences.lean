import Tariff.Proofs.Expression.Grammar

/-!
# Sentences of the grammar

    sum     := product (('+' | '-') product)*
    product := factor (('*' | '/') factor)*
    factor  := number | '(' sum ')' | '-' factor

`Sentence depth level symbols` reads these rules as they stand: a sum is a product and any number of
further products behind signs, and at most `depth` parentheses and minus signs are open at once. It
speaks of rows of symbols only, not of trees.

A row is a sentence exactly if it has a tree that is nested no deeper than `depth`
(`sentence_iff_hasTree`). The parser finds that tree under the limit `depth`, and conversely what it
accepts keeps the limit (`nesting_le_of_parse`): `Within` is an invariant of its steps, since every
operand that waits on the stack was read when the symbols below it were open. So the parser accepts
exactly the sentences (`parse_isOk_iff_sentence`).
-/

namespace Tariff.Expression

open Tariff.Expression.Parser

/-! ## The limit is kept -/

/-- Every operand that waits on the stack is within the limit, counted with what is open below it.
-/
def StackWithin (limit : Nat) : List Pending → Prop
  | [] => True
  | .negation :: stack => StackWithin limit stack
  | .group _ :: stack => StackWithin limit stack
  | .product left _ :: stack => openCount stack + left.nesting ≤ limit ∧ StackWithin limit stack
  | .sum left _ :: stack => openCount stack + left.nesting ≤ limit ∧ StackWithin limit stack

/-- A state within the limit: so are its stack and the operand that was read last. -/
def Within (limit : Nat) : ParseState → Prop
  | .before stack => openCount stack ≤ limit ∧ StackWithin limit stack
  | .after stack t => openCount stack + t.nesting ≤ limit ∧ StackWithin limit stack

section OpenCount

variable (stack : List Pending)

@[simp] theorem openCount_negation : openCount (.negation :: stack) = openCount stack + 1 := by
  simp [openCount]

@[simp] theorem openCount_group (place : Nat) :
    openCount (.group place :: stack) = openCount stack + 1 := by
  simp [openCount]

@[simp] theorem openCount_product (left : Tree) (op : Operator) :
    openCount (.product left op :: stack) = openCount stack := by
  simp [openCount]

@[simp] theorem openCount_sum (left : Tree) (op : Operator) :
    openCount (.sum left op :: stack) = openCount stack := by
  simp [openCount]

end OpenCount

variable {limit : Nat}

theorem within_afterFactor {stack : List Pending} {t : Tree}
    (ht : openCount stack + t.nesting ≤ limit) (hstack : StackWithin limit stack) :
    Within limit (afterFactor stack t) := by
  induction stack generalizing t with
  | nil => exact ⟨ht, hstack⟩
  | cons p stack ih =>
    cases p with
    | negation =>
      -- the minus is no longer open, but the tree is nested one deeper
      have hroom : openCount stack + (Tree.negate t).nesting ≤ limit := by
        simp only [openCount_negation] at ht
        simp only [Tree.nesting]
        omega
      exact ih hroom hstack
    | product left op =>
      obtain ⟨hleft, hbelow⟩ := hstack
      have hboth : openCount stack + (Tree.binary op left t).nesting ≤ limit := by
        simp only [openCount_product] at ht
        simp only [Tree.nesting]
        omega
      exact ⟨hboth, hbelow⟩
    | group place => exact ⟨ht, hstack⟩
    | sum left op => exact ⟨ht, hstack⟩

theorem within_closeProduct {stack : List Pending} {t : Tree}
    (ht : openCount stack + t.nesting ≤ limit) (hstack : StackWithin limit stack) :
    openCount (closeProduct stack t).1 + (closeProduct stack t).2.nesting ≤ limit
      ∧ StackWithin limit (closeProduct stack t).1 := by
  cases stack with
  | nil => exact ⟨ht, hstack⟩
  | cons p stack =>
    cases p with
    | sum left op =>
      obtain ⟨hleft, hbelow⟩ := hstack
      have hboth : openCount stack + (Tree.binary op left t).nesting ≤ limit := by
        simp only [openCount_sum] at ht
        simp only [Tree.nesting]
        omega
      exact ⟨hboth, hbelow⟩
    | negation => exact ⟨ht, hstack⟩
    | group place => exact ⟨ht, hstack⟩
    | product left op => exact ⟨ht, hstack⟩

/-- What is entered has room. -/
theorem within_enter {stack : List Pending} {pending : Pending} {place : Nat} {state : ParseState}
    (hopen : openCount (pending :: stack) = openCount stack + 1)
    (hpending : StackWithin limit stack → StackWithin limit (pending :: stack))
    (hstack : StackWithin limit stack) (h : enter limit stack pending place = .ok state) :
    Within limit state := by
  unfold enter at h
  split at h
  · next hroom =>
    cases h
    have hfits : openCount (pending :: stack) ≤ limit := by omega
    exact ⟨hfits, hpending hstack⟩
  · cases h

/-- **A step keeps the limit.** -/
theorem Within.step {state state' : ParseState} {l : Lexeme} (h : Within limit state)
    (hstep : Parser.step limit state l = .ok state') : Within limit state' := by
  obtain ⟨symbol, place⟩ := l
  cases state with
  | before stack =>
    obtain ⟨hopen, hstack⟩ := h
    cases symbol with
    | number cs =>
      cases hstep
      exact within_afterFactor hopen hstack
    | opening => exact within_enter (openCount_group stack place) id hstack hstep
    | closing => cases hstep
    | operator op =>
      cases op with
      | sub => exact within_enter (openCount_negation stack) id hstack hstep
      | add | mul | div => cases hstep
  | after stack t =>
    obtain ⟨ht, hstack⟩ := h
    have hclosed := within_closeProduct ht hstack
    cases symbol with
    | number cs | opening =>
      simp only [Parser.step] at hstep
      split at hstep <;> cases hstep
    | closing =>
      simp only [Parser.step] at hstep
      split at hstep
      · next opened rest t' hclose =>
        rw [hclose] at hclosed
        obtain ⟨ht', hrest⟩ := hclosed
        cases hstep
        have hroom : openCount rest + (Tree.group t').nesting ≤ limit := by
          simp only [openCount_group] at ht'
          simp only [Tree.nesting]
          omega
        exact within_afterFactor hroom hrest
      · cases hstep
    | operator op =>
      cases op with
      | mul | div =>
        cases hstep
        have hopen : openCount stack ≤ limit := by omega
        exact ⟨by rwa [openCount_product], ht, hstack⟩
      | add | sub =>
        cases hstep
        have hopen : openCount (closeProduct stack t).1 ≤ limit := by omega
        exact ⟨by rwa [openCount_sum], hclosed⟩

theorem Within.run {state state' : ParseState} {lexemes : List Lexeme} (h : Within limit state)
    (hrun : lexemes.foldlM (Parser.step limit) state = .ok state') : Within limit state' := by
  induction lexemes generalizing state with
  | nil =>
    cases hrun
    exact h
  | cons l lexemes ih =>
    rw [List.foldlM_cons] at hrun
    obtain ⟨next, hstep, hrest⟩ := bind_eq_ok_iff.mp hrun
    exact ih (h.step hstep) hrest

/-- **A tree that is parsed is nested no deeper than the limit.** -/
theorem nesting_le_of_parse {t : Tree} {lexemes : List Lexeme} (h : parse limit lexemes = .ok t) :
    t.nesting ≤ limit := by
  unfold parse at h
  split at h
  · cases h
  · obtain ⟨state, hrun, hfinish⟩ := bind_eq_ok_iff.mp h
    have hstart : Within limit (.before []) := ⟨Nat.zero_le _, trivial⟩
    have hstate := hstart.run hrun
    cases state with
    | before stack => cases hfinish
    | after stack u =>
      have hclosed := (within_closeProduct hstate.1 hstate.2).1
      simp only [Parser.finish] at hfinish
      split at hfinish
      · cases hfinish
      · cases hfinish
        omega

/-- A row has the tree that it is parsed to, and no other limit changes that. -/
theorem parse_eq_ok_iff {t : Tree} {lexemes : List Lexeme} :
    parse limit lexemes = .ok t
      ↔ Derives .sum t (lexemes.map (·.symbol)) ∧ t.nesting ≤ limit :=
  ⟨fun h => ⟨derives_of_parse h, nesting_le_of_parse h⟩,
    fun ⟨hderives, hlimit⟩ => parse_of_derives hderives hlimit⟩

/-- A text has the tree of the row that it spells, if the limit allows its nesting. -/
theorem ofText_eq_ok_iff_derives {cs : List Char} {t : Tree} :
    Tree.ofText cs limit = .ok t
      ↔ ∃ row, Spells cs row ∧ Derives .sum t row ∧ t.nesting ≤ limit := by
  constructor
  · intro h
    obtain ⟨lexemes, hscan, hparse⟩ := bind_eq_ok_iff.mp h
    obtain ⟨hderives, hlimit⟩ := parse_eq_ok_iff.mp hparse
    exact ⟨_, scan_iff_spells.mp ⟨lexemes, hscan, rfl⟩, hderives, hlimit⟩
  · rintro ⟨row, hspells, hderives, hlimit⟩
    exact ofText_of_spells hspells hderives hlimit

/-- A row of symbols has at most one tree. -/
theorem Derives.unique {t u : Tree} {symbols : List Symbol} (ht : Derives .sum t symbols)
    (hu : Derives .sum u symbols) : t = u := by
  -- places do not matter, and some limit allows both trees
  let lexemes : List Lexeme := symbols.map (⟨·, 0⟩)
  have hsymbols : lexemes.map (·.symbol) = symbols := by
    rw [List.map_map]
    exact List.map_id symbols
  rw [← hsymbols] at ht hu
  have hparse := parse_of_derives ht (Nat.le_max_left t.nesting u.nesting)
  rw [parse_of_derives hu (Nat.le_max_right t.nesting u.nesting)] at hparse
  exact (Except.ok.inj hparse).symm

/-! ## The rules of the grammar -/

/-- The operations between the parts of a product. -/
def Operator.IsProduct (op : Operator) : Prop := op = .mul ∨ op = .div

/-- The operations between the parts of a sum. -/
def Operator.IsSum (op : Operator) : Prop := op = .add ∨ op = .sub

/-- A first part and further parts behind the signs of operations. -/
def joined (first : List Symbol) (rest : List (Operator × List Symbol)) : List Symbol :=
  first ++ rest.flatMap fun e => .operator e.1 :: e.2

/-- The rows of symbols that the grammar generates at a level, with at most `depth` parentheses and
minus signs open at once. -/
inductive Sentence : Nat → Level → List Symbol → Prop where
  | number {depth : Nat} (cs : List Char) : Sentence depth .factor [.number cs]
  | group {depth : Nat} {symbols : List Symbol} (inner : Sentence depth .sum symbols) :
      Sentence (depth + 1) .factor (.opening :: (symbols ++ [.closing]))
  | negate {depth : Nat} {symbols : List Symbol} (inner : Sentence depth .factor symbols) :
      Sentence (depth + 1) .factor (.operator .sub :: symbols)
  | product {depth : Nat} {first : List Symbol} {rest : List (Operator × List Symbol)}
      (hops : ∀ e ∈ rest, e.1.IsProduct) (hfirst : Sentence depth .factor first)
      (hrest : ∀ e ∈ rest, Sentence depth .factor e.2) :
      Sentence depth .product (joined first rest)
  | sum {depth : Nat} {first : List Symbol} {rest : List (Operator × List Symbol)}
      (hops : ∀ e ∈ rest, e.1.IsSum) (hfirst : Sentence depth .product first)
      (hrest : ∀ e ∈ rest, Sentence depth .product e.2) :
      Sentence depth .sum (joined first rest)

theorem joined_nil (first : List Symbol) : joined first [] = first := List.append_nil first

theorem joined_append (first : List Symbol) (rest : List (Operator × List Symbol)) (op : Operator)
    (last : List Symbol) :
    joined first (rest ++ [(op, last)]) = joined first rest ++ .operator op :: last := by
  simp [joined]

/-- A row of a level that has a tree, nested no deeper than `depth`. -/
def HasTree (depth : Nat) (level : Level) (symbols : List Symbol) : Prop :=
  ∃ t, Derives level t symbols ∧ t.nesting ≤ depth

/-- Further parts are grouped to what stands before them one after the other. -/
theorem hasTree_joined {depth : Nat} {level part : Level} {IsOp : Operator → Prop}
    (hjoin : ∀ {op l r ls rs}, IsOp op → Derives level l ls → Derives part r rs →
      Derives level (.binary op l r) (ls ++ .operator op :: rs))
    {first : List Symbol} {rest : List (Operator × List Symbol)} (hops : ∀ e ∈ rest, IsOp e.1)
    (hfirst : HasTree depth level first) (hrest : ∀ e ∈ rest, HasTree depth part e.2) :
    HasTree depth level (joined first rest) := by
  induction rest using List.reverseRecOn with
  | nil => rwa [joined_nil]
  | append_singleton rest e ih =>
    obtain ⟨op, last⟩ := e
    obtain ⟨l, hl, hldepth⟩ := ih (fun e he => hops e (List.mem_append_left _ he))
      fun e he => hrest e (List.mem_append_left _ he)
    obtain ⟨r, hr, hrdepth⟩ := hrest (op, last) (by simp)
    have hop : IsOp op := hops (op, last) (by simp)
    rw [joined_append]
    exact ⟨.binary op l r, hjoin hop hl hr, Nat.max_le.mpr ⟨hldepth, hrdepth⟩⟩

theorem Sentence.hasTree {depth : Nat} {level : Level} {symbols : List Symbol}
    (h : Sentence depth level symbols) : HasTree depth level symbols := by
  induction h with
  | number cs => exact ⟨_, .number cs, Nat.zero_le _⟩
  | group _ ih =>
    obtain ⟨t, ht, hdepth⟩ := ih
    exact ⟨_, .group ht, Nat.succ_le_succ hdepth⟩
  | negate _ ih =>
    obtain ⟨t, ht, hdepth⟩ := ih
    exact ⟨_, .negate ht, Nat.succ_le_succ hdepth⟩
  | product hops _ _ ihfirst ihrest =>
    obtain ⟨t, ht, hdepth⟩ := ihfirst
    exact hasTree_joined Derives.product hops ⟨t, .ofFactor ht, hdepth⟩ ihrest
  | sum hops _ _ ihfirst ihrest =>
    obtain ⟨t, ht, hdepth⟩ := ihfirst
    exact hasTree_joined Derives.sum hops ⟨t, .ofProduct ht, hdepth⟩ ihrest

theorem Derives.sentence {depth : Nat} {level : Level} {t : Tree} {symbols : List Symbol}
    (h : Derives level t symbols) (hdepth : t.nesting ≤ depth) : Sentence depth level symbols := by
  induction h generalizing depth with
  | number cs => exact .number cs
  | negate _ ih =>
    cases depth with
    | zero => exact absurd hdepth (Nat.not_succ_le_zero _)
    | succ depth => exact .negate (ih (Nat.le_of_succ_le_succ hdepth))
  | group _ ih =>
    cases depth with
    | zero => exact absurd hdepth (Nat.not_succ_le_zero _)
    | succ depth => exact .group (ih (Nat.le_of_succ_le_succ hdepth))
  | @ofFactor t symbols _ ih =>
    have hsentence : Sentence depth .product (joined symbols []) :=
      .product (by simp) (ih hdepth) (by simp)
    rwa [joined_nil] at hsentence
  | @ofProduct t symbols _ ih =>
    have hsentence : Sentence depth .sum (joined symbols []) :=
      .sum (by simp) (ih hdepth) (by simp)
    rwa [joined_nil] at hsentence
  | @product op l r ls rs hop _ _ ihl ihr =>
    obtain ⟨hldepth, hrdepth⟩ := Nat.max_le.mp hdepth
    -- the left side is a product already, and takes one more part
    cases ihl hldepth with
    | product hops hfirst hrest =>
      rw [← joined_append]
      exact .product (List.forall_mem_append.mpr ⟨hops, List.forall_mem_singleton.mpr hop⟩) hfirst
        (List.forall_mem_append.mpr ⟨hrest, List.forall_mem_singleton.mpr (ihr hrdepth)⟩)
  | @sum op l r ls rs hop _ _ ihl ihr =>
    obtain ⟨hldepth, hrdepth⟩ := Nat.max_le.mp hdepth
    cases ihl hldepth with
    | sum hops hfirst hrest =>
      rw [← joined_append]
      exact .sum (List.forall_mem_append.mpr ⟨hops, List.forall_mem_singleton.mpr hop⟩) hfirst
        (List.forall_mem_append.mpr ⟨hrest, List.forall_mem_singleton.mpr (ihr hrdepth)⟩)

/-- The rules generate exactly the rows that have trees. -/
theorem sentence_iff_hasTree {depth : Nat} {level : Level} {symbols : List Symbol} :
    Sentence depth level symbols ↔ HasTree depth level symbols :=
  ⟨Sentence.hasTree, fun ⟨_, ht, hdepth⟩ => ht.sentence hdepth⟩

/-- **The parser accepts exactly the sentences.** -/
theorem parse_isOk_iff_sentence {lexemes : List Lexeme} :
    (∃ t, parse limit lexemes = .ok t) ↔ Sentence limit .sum (lexemes.map (·.symbol)) := by
  rw [sentence_iff_hasTree]
  exact exists_congr fun t => parse_eq_ok_iff

end Tariff.Expression

import Tariff.Price
import Tariff.Proofs.Expression.Sentences
import Tariff.Proofs.Stack

/-!
# How many levels an expression needs

An expression is evaluated on one level for every expression around it, so a sum of many parts needs
as many levels as it has parts: they are grouped from the left. `Tree.calls` counts the levels, and
`Tree.evaluate_limited` settles everything about the evaluation on a limited stack at once. What is
not evaluated needs no level: the dividend over a divisor that is zero, and the right side of a
fault.

While a text is read the levels are needed by what is open, which the limit on the nesting bounds
(`fits_of_limit`). So a text that is shorter than the stack is high always has its value
(`textFits_of_length`).
-/

namespace Tariff.Expression

open Tariff.Expression.Parser

/-! ## Evaluation -/

namespace Tree

/-- How many levels the evaluation of an expression needs. -/
def calls : Tree → Nat
  | literal _ => 1
  | group t | negate t => t.calls + 1
  | binary .div l r =>
    max r.calls (if r.evaluate.toOption.any (!·.isZero) then l.calls else 0) + 1
  | binary _ l r => max l.calls (if l.evaluate.isOk then r.calls else 0) + 1

/-- A dividend is evaluated if the divisor has a value other than zero. -/
theorem calls_div_le_iff {l r : Tree} {n : Nat} : (binary .div l r).calls ≤ n + 1
    ↔ r.calls ≤ n ∧ ∀ b, r.evaluate = .ok b → b.isZero = false → l.calls ≤ n := by
  rw [calls, Nat.succ_le_succ_iff, Nat.max_le]
  cases r.evaluate with
  | error e => simp [Except.toOption]
  | ok b => cases hb : b.isZero <;> simp [Except.toOption, hb]

/-- A right operand of another operation is evaluated if the left one has a value. -/
theorem calls_binary_le_iff {op : Operator} (hop : op ≠ .div) {l r : Tree} {n : Nat} :
    (binary op l r).calls ≤ n + 1
      ↔ l.calls ≤ n ∧ ∀ a, l.evaluate = .ok a → r.calls ≤ n := by
  have hcalls : (binary op l r).calls
      = max l.calls (if l.evaluate.isOk then r.calls else 0) + 1 := by
    cases op with
    | div => exact absurd rfl hop
    | add | sub | mul => rfl
  rw [hcalls, Nat.succ_le_succ_iff, Nat.max_le]
  cases l.evaluate with
  | error e => simp [Except.isOk, Except.toBool]
  | ok a => simp [Except.isOk, Except.toBool]

/-- **An expression has its value on every stack that is as high as its calls are deep**, and on no
other. -/
theorem evaluate_limited (t : Tree) (n : Nat) :
    Limited (t.calls ≤ n) t.evaluate (t.evaluateWithin n) := by
  induction t generalizing n with
  | literal d =>
    cases n with
    | zero => exact .of_not (Nat.not_succ_le_zero _)
    | succ n => exact .of (Nat.succ_le_succ (Nat.zero_le n))
  | group t ih =>
    cases n with
    | zero => exact .of_not (Nat.not_succ_le_zero _)
    | succ n => exact (ih n).congr Nat.succ_le_succ_iff.symm
  | negate t ih =>
    cases n with
    | zero => exact .of_not (Nat.not_succ_le_zero _)
    | succ n =>
      have hneg (d : Decimal) : Limited True
          (d.neg?.elim (.error .overflow) .ok : Except ArithmeticFault Decimal)
          (d.neg?.elim (.error (.fault .overflow)) .ok) := by
        cases d.neg? <;> exact .of trivial
      exact ((ih n).bind fun _ d _ => hneg d).congr (by simp [calls])
  | binary op l r ihl ihr =>
    cases n with
    | zero => exact .of_not (by cases op <;> exact Nat.not_succ_le_zero _)
    | succ n =>
      by_cases hop : op = .div
      · -- the divisor comes first, and the dividend only if that is not zero
        subst hop
        refine ((ihr n).bind fun _ b _ => ?_).congr calls_div_le_iff.symm
        show Limited _ (if b.isZero then _ else _) (if b.isZero then _ else _)
        cases b.isZero with
        | true => exact .of nofun
        | false => exact ((ihl n).bind fun _ a _ => .of trivial).congr (by simp)
      · -- the left operand comes first, and the right one only if that has a value
        have hboth : Limited (l.calls ≤ n ∧ ∀ a, l.evaluate = .ok a → r.calls ≤ n)
            (l.evaluate >>= fun a => r.evaluate >>= fun b => op.apply a b)
            (l.evaluateWithin n >>= fun a => r.evaluateWithin n >>= fun b =>
              (op.apply a b).mapError .fault) :=
          (ihl n).bind fun _ a _ => ((ihr n).bind fun _ b _ => .of trivial).congr (by simp)
        cases op with
        | div => exact absurd rfl hop
        | add | sub | mul => exact hboth.congr (calls_binary_le_iff hop).symm

end Tree

/-- Every expression in a row begins with a symbol of its own. -/
theorem Derives.calls_le_length {level : Level} {t : Tree} {symbols : List Symbol}
    (h : Derives level t symbols) : t.calls ≤ symbols.length := by
  induction h with
  | number cs => exact Nat.le_refl 1
  | negate _ ih => exact Nat.succ_le_succ ih
  | group _ ih => simp only [Tree.calls, List.length_cons, List.length_append]; omega
  | ofFactor _ ih | ofProduct _ ih => exact ih
  | @product op l r ls rs _ _ _ ihl ihr | @sum op l r ls rs _ _ _ ihl ihr =>
    rw [List.length_append, List.length_cons, ← Nat.add_assoc]
    by_cases hop : op = .div
    · subst hop
      exact Tree.calls_div_le_iff.mpr ⟨by omega, fun _ _ _ => by omega⟩
    · exact (Tree.calls_binary_le_iff hop).mpr ⟨by omega, fun _ _ => by omega⟩

/-! ## Reading -/

/-- There are levels for all that is ever open while a row of lexemes is read from a state. -/
def Fits (limit levels : Nat) (s : ParseState) (lexemes : List Lexeme) : Prop :=
  ∀ front s', front <+: lexemes → front.foldlM (step limit) s = .ok s' → calls s'.stack ≤ levels

theorem fits_nil {limit levels : Nat} {s : ParseState} :
    Fits limit levels s [] ↔ calls s.stack ≤ levels := by
  constructor
  · intro h
    exact h [] s List.prefix_rfl rfl
  · intro h front s' hfront hrun
    obtain rfl := List.prefix_nil.mp hfront
    cases hrun
    exact h

theorem fits_cons {limit levels : Nat} {s : ParseState} {l : Lexeme} {lexemes : List Lexeme} :
    Fits limit levels s (l :: lexemes) ↔ calls s.stack ≤ levels
      ∧ ∀ s', step limit s l = .ok s' → Fits limit levels s' lexemes := by
  constructor
  · intro h
    refine ⟨h [] s (List.nil_prefix) rfl, fun s' hstep front s'' hfront hrun => ?_⟩
    exact h (l :: front) s'' (List.cons_prefix_cons.mpr ⟨rfl, hfront⟩)
      ((foldlM_cons_ok hstep).trans hrun)
  · rintro ⟨hstart, hrest⟩ front s'' hfront hrun
    cases front with
    | nil =>
      cases hrun
      exact hstart
    | cons l' front =>
      obtain ⟨rfl, hfront'⟩ := List.cons_prefix_cons.mp hfront
      obtain ⟨s', hstep, hrun⟩ := bind_eq_ok_iff.mp (List.foldlM_cons.symm.trans hrun)
      exact hrest s' hstep front s'' hfront' hrun

theorem fits_start {limit levels : Nat} {s : ParseState} {lexemes : List Lexeme}
    (h : Fits limit levels s lexemes) : calls s.stack ≤ levels :=
  h [] s List.nil_prefix rfl

theorem step_limited {limit levels : Nat} (s : ParseState) (l : Lexeme) :
    Limited (∀ s', step limit s l = .ok s' → calls s'.stack ≤ levels) (step limit s l)
      (stepWithin limit levels s l) := by
  unfold stepWithin
  cases step limit s l with
  | error e => exact .of nofun
  | ok s' =>
    show Limited _ _ (if calls s'.stack ≤ levels then _ else _)
    split
    · next h => exact .of fun _ hs => by cases hs; exact h
    · next h => exact .of_not fun hall => h (hall s' rfl)

theorem run_limited {limit levels : Nat} (lexemes : List Lexeme) {s : ParseState}
    (hs : calls s.stack ≤ levels) :
    Limited (Fits limit levels s lexemes) (lexemes.foldlM (step limit) s)
      (lexemes.foldlM (stepWithin limit levels) s) := by
  induction lexemes generalizing s with
  | nil => exact .of (fits_nil.mpr hs)
  | cons l lexemes ih =>
    rw [List.foldlM_cons, List.foldlM_cons]
    refine ((step_limited s l).bind fun hroom s' hstep => ih (hroom s' hstep)).congr ?_
    -- a row that fits begins with a state that does, so the step asks for nothing more
    rw [fits_cons]
    exact ⟨fun h => ⟨hs, h.2⟩, fun h => ⟨fun s' hstep => fits_start (h.2 s' hstep), h.2⟩⟩

/-- **A row of lexemes has its tree on every stack that there is room on for all that is open.** -/
theorem parse_limited (limit levels : Nat) (lexemes : List Lexeme) :
    Limited (lexemes ≠ [] → Fits limit levels (.before []) lexemes) (parse limit lexemes)
      (parseWithin limit levels lexemes) := by
  cases lexemes with
  | nil => exact .of fun h => absurd rfl h
  | cons l lexemes =>
    show Limited _ _ (if levels < calls [] then _ else _)
    split
    · -- not even a row that opens nothing can be looked at
      next hlow =>
      exact .of_not fun h => Nat.not_le.mpr hlow (fits_start (h (List.cons_ne_nil _ _)))
    · next hroom =>
      refine ((run_limited (l :: lexemes) (Nat.not_lt.mp hroom)).bind fun _ s _ =>
        .of (p := True) trivial).congr ?_
      simp

/-- What is open takes at most three levels each. -/
theorem calls_le (stack : List Pending) : calls stack ≤ groundCalls + 3 * openCount stack := by
  induction stack with
  | nil => exact Nat.le_refl _
  | cons p stack ih =>
    have hcons : calls (p :: stack) = pendingCalls p + calls stack := rfl
    cases p with
    | negation | group =>
      simp only [hcons, pendingCalls, openCount_negation, openCount_group]
      omega
    | product | sum =>
      simp only [hcons, pendingCalls, openCount_product, openCount_sum]
      omega

theorem Within.openCount_le {limit : Nat} {s : ParseState} (h : Within limit s) :
    openCount s.stack ≤ limit := by
  cases s with
  | before stack => exact h.1
  | after stack t => exact Nat.le_trans (Nat.le_add_right _ _) h.1

/-- The limit on the nesting keeps the reading within a stack that is high enough for it. -/
theorem fits_of_limit {limit levels : Nat} (h : groundCalls + 3 * limit ≤ levels)
    (lexemes : List Lexeme) : Fits limit levels (.before []) lexemes := by
  intro front s _ hrun
  have hstart : Within limit (.before []) := ⟨Nat.zero_le _, trivial⟩
  have hopen : openCount s.stack ≤ limit := (hstart.run hrun).openCount_le
  have hcalls : calls s.stack ≤ groundCalls + 3 * openCount s.stack := calls_le s.stack
  omega

/-! ## Texts -/

/-- There are levels for reading a text and for evaluating its tree. -/
structure TextFits (cs : List Char) (depth levels : Nat) : Prop where
  /-- The text can be read. -/
  read : ∀ lexemes, Lexeme.scan cs = .ok lexemes → lexemes ≠ [] →
    Fits depth (levels - 1) (.before []) lexemes
  /-- Its tree can be evaluated. -/
  evaluated : ∀ t, Tree.ofText cs depth = .ok t → t.calls ≤ levels - 1

theorem ofText_limited (cs : List Char) (depth levels : Nat) :
    Limited (∀ lexemes, Lexeme.scan cs = .ok lexemes → lexemes ≠ [] →
        Fits depth levels (.before []) lexemes)
      (Tree.ofText cs depth) (Tree.ofTextWithin cs depth levels) :=
  ((Limited.of (p := True) trivial).bind fun _ lexemes _ =>
    parse_limited depth levels lexemes).congr (by simp)

/-- **A text has its value on a stack that is high enough for reading it and for evaluating it**,
and on no other. -/
theorem evaluateText_limited (cs : List Char) (depth levels : Nat) :
    Limited (TextFits cs depth levels) (evaluateText cs depth)
      (evaluateTextWithin cs depth levels) := by
  have hread := (ofText_limited cs depth (levels - 1)).mapError EvaluationFault.malformed
  have hvalue (t : Tree) := (t.evaluate_limited (levels - 1)).mapError EvaluationFault.ofArithmetic
  refine (hread.bind fun _ t _ => hvalue t).congr ?_
  simp only [mapError_eq_ok_iff]
  exact ⟨fun h => ⟨h.1, h.2⟩, fun h => ⟨h.read, h.evaluated⟩⟩

theorem textFits_iff {cs : List Char} {depth levels : Nat} (h : groundCalls + 3 * depth < levels) :
    TextFits cs depth levels ↔ ∀ t, Tree.ofText cs depth = .ok t → t.calls < levels := by
  have hlevels {t : Tree} : t.calls ≤ levels - 1 ↔ t.calls < levels := by omega
  constructor
  · exact fun hfits t ht => hlevels.mp (hfits.evaluated t ht)
  · exact fun hcalls => ⟨fun lexemes _ _ => fits_of_limit (by omega) lexemes,
      fun t ht => hlevels.mpr (hcalls t ht)⟩

/-- A text with fewer characters than there are levels has its value, if the levels suffice for the
nesting that is allowed. -/
theorem textFits_of_length {cs : List Char} {depth levels : Nat}
    (h : groundCalls + 3 * depth < levels) (hcs : cs.length < levels) :
    TextFits cs depth levels := by
  refine (textFits_iff h).mpr fun t ht => ?_
  obtain ⟨row, hspells, hderives, -⟩ := ofText_eq_ok_iff_derives.mp ht
  have hcalls : t.calls ≤ row.length := hderives.calls_le_length
  have hrow : row.length ≤ cs.length := hspells.length_le
  omega

end Tariff.Expression

import Tariff.Proofs.Expression.Acceptance
import Tariff.Proofs.Expression.Levels
import Tariff.Proofs.Numeral.Fitting

/-!
# Evaluation stays finite

Decimal arithmetic has more values than numbers and more faults than a result that is too large: it
knows infinities and undefined values, and operations that have no result. `Tree.run` is evaluation
in the whole of that arithmetic, with every signal trapped. It computes what `Tree.evaluate` does
(`Tree.run_eq`), since literals are numbers and no operation on numbers leaves them: a quotient is
the only one without a result, and its divisor is looked at first.

A fault is passed on by everything that was being computed (`Tree.Reached.error`). So evaluation
ends with a divisor of zero exactly if it reaches one (`Tree.run_eq_zeroDivisor_iff`).

On a stack of limited height it may end for want of a level as well (`runText_limited`), and a sum
of many small parts is enough for that (`evaluation_exhausts_stack`).
-/

namespace Tariff

open Expression

/-! ## Arithmetic with infinities and undefined values -/

/-- What an operation reports instead of a result. All of these are trapped. -/
inductive Signal where
  /-- The operation has no result, or an operand is a signalling undefined value. -/
  | invalidOperation
  /-- A number other than zero is divided by zero. -/
  | divisionByZero
  /-- The result is too large. -/
  | overflow
  deriving DecidableEq, Repr

namespace Extended

/-- Whether the value is undefined. -/
def isUndefined : Extended → Bool
  | undefined _ _ _ => true
  | _ => false

/-- Whether the value is undefined and must not be computed with. -/
def isSignaling : Extended → Bool
  | undefined _ signaling _ => signaling
  | _ => false

/-- The value as a result: of the number that an undefined one carries the last digits are kept. -/
def quiet : Extended → Extended
  | undefined neg _ payload => undefined neg false (payload % 10 ^ Decimal.precision)
  | x => x

/-- The result of an operation on two values of which one is undefined. -/
def passOn (a b : Extended) : Except Signal Extended :=
  if a.isSignaling || b.isSignaling then .error .invalidOperation
  else .ok (if a.isUndefined then a.quiet else b.quiet)

/-- The result of an operation on two numbers. -/
def ofFitted (d : Option Decimal) : Except Signal Extended :=
  d.elim (.error .overflow) (.ok ∘ finite)

/-- The value with the other sign, as it is written. -/
def opposite : Extended → Extended
  | finite d => finite { d with neg := !d.neg }
  | infinite neg => infinite (!neg)
  | undefined neg signaling payload => undefined (!neg) signaling payload

/-- The sum. -/
def add : Extended → Extended → Except Signal Extended
  | finite a, finite b => ofFitted (a.add? b)
  | infinite m, infinite n => if m = n then .ok (.infinite m) else .error .invalidOperation
  | infinite m, finite _ => .ok (.infinite m)
  | finite _, infinite n => .ok (.infinite n)
  | a, b => passOn a b

/-- The difference. -/
def sub (a b : Extended) : Except Signal Extended :=
  if a.isUndefined || b.isUndefined then passOn a b else a.add b.opposite

/-- The product. -/
def mul : Extended → Extended → Except Signal Extended
  | finite a, finite b => ofFitted (a.mul? b)
  | infinite m, infinite n => .ok (.infinite (m ^^ n))
  | infinite m, finite b =>
    if b.isZero then .error .invalidOperation else .ok (.infinite (m ^^ b.neg))
  | finite a, infinite n =>
    if a.isZero then .error .invalidOperation else .ok (.infinite (a.neg ^^ n))
  | a, b => passOn a b

/-- The quotient. A number divided by an infinity is the smallest zero. -/
def div : Extended → Extended → Except Signal Extended
  | finite a, finite b =>
    if b.isZero then .error (if a.isZero then .invalidOperation else .divisionByZero)
    else ofFitted (a.div? b)
  | infinite _, infinite _ => .error .invalidOperation
  | infinite m, finite b => .ok (.infinite (m ^^ b.neg))
  | finite a, infinite n => .ok (.finite ⟨a.neg ^^ n, 0, Decimal.tinyExponent⟩)
  | a, b => passOn a b

/-- The value with the other sign, as the result of an operation. -/
def neg : Extended → Except Signal Extended
  | finite d => ofFitted d.neg?
  | infinite n => .ok (.infinite (!n))
  | x => passOn x x

/-- Whether the value equals zero. -/
def equalsZero : Extended → Except Signal Bool
  | finite d => .ok d.isZero
  | infinite _ => .ok false
  | undefined _ signaling _ => if signaling then .error .invalidOperation else .ok false

end Extended

namespace Expression

/-- The result of an operation on two values. -/
def Operator.run : Operator → Extended → Extended → Except Signal Extended
  | .add => Extended.add
  | .sub => Extended.sub
  | .mul => Extended.mul
  | .div => Extended.div

/-- What ends an evaluation. -/
inductive Raised where
  /-- A divisor was found to equal zero. -/
  | zeroDivisor
  /-- An operation has reported a signal. -/
  | signal (s : Signal)
  deriving DecidableEq, Repr

/-- A fault of arithmetic as what ends an evaluation. -/
def Raised.ofFault : ArithmeticFault → Raised
  | .divisionByZero => zeroDivisor
  | .overflow => signal .overflow

namespace Tree

/-- The value of an expression in the whole of decimal arithmetic. A divisor is computed, and
compared with zero, before its dividend. -/
def run : Tree → Except Raised Extended
  | literal d => .ok (.finite d)
  | group t => t.run
  | negate t => do
    let x ← t.run
    x.neg.mapError .signal
  | binary .div l r => do
    let b ← r.run
    let zero ← b.equalsZero.mapError .signal
    if zero then .error .zeroDivisor
    else
      let a ← l.run
      (a.div b).mapError .signal
  | binary op l r => do
    let a ← l.run
    let b ← r.run
    (op.run a b).mapError .signal

/-- The value of an expression in the whole of decimal arithmetic, on a stack with `levels` left. -/
def runWithin : Nat → Tree → Except (Halt Raised) Extended
  | 0, _ => .error .stack
  | _ + 1, literal d => .ok (.finite d)
  | levels + 1, group t => t.runWithin levels
  | levels + 1, negate t => do
    let x ← t.runWithin levels
    x.neg.mapError (.fault ∘ .signal)
  | levels + 1, binary .div l r => do
    let b ← r.runWithin levels
    let zero ← b.equalsZero.mapError (.fault ∘ .signal)
    if zero then .error (.fault .zeroDivisor)
    else
      let a ← l.runWithin levels
      (a.div b).mapError (.fault ∘ .signal)
  | levels + 1, binary op l r => do
    let a ← l.runWithin levels
    let b ← r.runWithin levels
    (op.run a b).mapError (.fault ∘ .signal)

end Tree

/-! ## Numbers are not left -/

/-- The outcome of an evaluation in the arithmetic of numbers, among all outcomes. -/
def ofOutcome (x : Except ArithmeticFault Decimal) : Except Raised Extended :=
  (x.mapError .ofFault).map .finite

theorem ofOutcome_bind (x : Except ArithmeticFault Decimal)
    (f : Decimal → Except ArithmeticFault Decimal) :
    ofOutcome (x >>= f) = x.mapError .ofFault >>= fun d => ofOutcome (f d) := by
  cases x <;> rfl

theorem ofOutcome_elim (d : Option Decimal) :
    (Extended.ofFitted d).mapError .signal = ofOutcome (d.elim (.error .overflow) .ok) := by
  cases d <;> rfl

/-- An operation on numbers has the result that it has in the arithmetic of numbers. -/
theorem Operator.run_finite (op : Operator) (a b : Decimal) (hop : op = .div → b.isZero = false) :
    (op.run (.finite a) (.finite b)).mapError .signal = ofOutcome (op.apply a b) := by
  cases op with
  | add => exact ofOutcome_elim (a.add? b)
  | sub => exact ofOutcome_elim (a.sub? b)
  | mul => exact ofOutcome_elim (a.mul? b)
  | div =>
    have hzero := hop rfl
    simp only [Operator.run, Operator.apply, Extended.div, hzero]
    exact ofOutcome_elim (a.div? b)

namespace Tree

theorem run_bind {t : Tree} (h : t.run = ofOutcome t.evaluate)
    (f : Extended → Except Raised Extended) :
    t.run >>= f = t.evaluate.mapError .ofFault >>= fun d => f (.finite d) := by
  rw [h]
  cases t.evaluate <;> rfl

/-- **Evaluation stays among the numbers**, and the only signal is that a result is too large. -/
theorem run_eq (t : Tree) : t.run = ofOutcome t.evaluate := by
  induction t with
  | literal d => rfl
  | group t ih => exact ih
  | negate t ih =>
    rw [run, evaluate, ofOutcome_bind, run_bind ih]
    congr 1
    funext d
    exact ofOutcome_elim d.neg?
  | binary op l r ihl ihr =>
    cases op with
    | div =>
      -- the divisor comes first, and only one that is not zero gets as far as the division
      rw [run, evaluate, ofOutcome_bind, run_bind ihr]
      congr 1
      funext b
      show (if b.isZero then _ else _) = ofOutcome (if b.isZero then _ else _)
      split
      · rfl
      · next hzero =>
        rw [ofOutcome_bind, run_bind ihl]
        congr 1
        funext a
        exact Operator.run_finite .div a b fun _ => by simpa using hzero
    | add | sub | mul =>
      simp only [run, evaluate, ofOutcome_bind, run_bind ihl, run_bind ihr]
      congr 1
      funext a
      congr 1
      funext b
      exact Operator.run_finite _ a b fun hdiv => by cases hdiv

/-! ## What an evaluation reaches -/

/-- The expressions that are evaluated while one is. A dividend is only if the divisor has a value
other than zero, and a right operand only if the left one has a value. -/
inductive Reached : Tree → Tree → Prop where
  | here (t : Tree) : Reached t t
  | negate {t u : Tree} (inner : Reached t u) : Reached (.negate t) u
  | group {t u : Tree} (inner : Reached t u) : Reached (.group t) u
  | divisor {l r u : Tree} (right : Reached r u) : Reached (.binary .div l r) u
  | dividend {l r u : Tree} {b : Extended} (hr : r.run = .ok b) (hb : b.equalsZero = .ok false)
      (left : Reached l u) : Reached (.binary .div l r) u
  | left {op : Operator} {l r u : Tree} (hop : op ≠ .div) (left : Reached l u) :
      Reached (.binary op l r) u
  | right {op : Operator} {l r u : Tree} {a : Extended} (hop : op ≠ .div) (hl : l.run = .ok a)
      (right : Reached r u) : Reached (.binary op l r) u

theorem run_binary {op : Operator} (hop : op ≠ .div) (l r : Tree) :
    (binary op l r).run
      = l.run >>= fun a => r.run >>= fun b => (op.run a b).mapError .signal := by
  cases op with
  | div => exact absurd rfl hop
  | add | sub | mul => rfl

/-- **A fault is passed on** by everything that was being computed. -/
theorem Reached.error {t u : Tree} {e : Raised} (h : t.Reached u) (hu : u.run = .error e) :
    t.run = .error e := by
  induction h with
  | here => exact hu
  | group _ ih => exact ih hu
  | negate _ ih | divisor _ ih => exact bind_eq_error_iff.mpr (.inl (ih hu))
  | dividend hr hb _ ih =>
    have hcompared : Except.mapError Raised.signal _ = .ok false := mapError_eq_ok_iff.mpr hb
    exact bind_eq_error_iff.mpr (.inr ⟨_, hr, bind_eq_error_iff.mpr (.inr
      ⟨false, hcompared, bind_eq_error_iff.mpr (.inl (ih hu))⟩)⟩)
  | left hop _ ih =>
    rw [run_binary hop]
    exact bind_eq_error_iff.mpr (.inl (ih hu))
  | right hop hl _ ih =>
    rw [run_binary hop]
    exact bind_eq_error_iff.mpr (.inr ⟨_, hl, bind_eq_error_iff.mpr (.inl (ih hu))⟩)

/-- A quotient whose divisor equals zero. -/
def IsZeroDivision (t : Tree) : Prop :=
  ∃ l r b, t = .binary .div l r ∧ r.run = .ok b ∧ b.equalsZero = .ok true

theorem IsZeroDivision.run_eq {t : Tree} (h : t.IsZeroDivision) : t.run = .error .zeroDivisor := by
  obtain ⟨l, r, b, rfl, hr, hb⟩ := h
  have hcompared : b.equalsZero.mapError Raised.signal = .ok true := mapError_eq_ok_iff.mpr hb
  exact bind_eq_error_iff.mpr (.inr ⟨b, hr, bind_eq_error_iff.mpr (.inr ⟨true, hcompared, rfl⟩)⟩)

theorem signal_ne_zeroDivisor {α : Type} (x : Except Signal α) :
    x.mapError Raised.signal ≠ .error .zeroDivisor := by
  intro h
  obtain ⟨s, -, hs⟩ := mapError_eq_error_iff.mp h
  cases hs

/-- A quotient ends with a divisor of zero that one of its sides has ended with, or with its own. -/
theorem run_div_eq_zeroDivisor {l r : Tree} (h : (binary .div l r).run = .error .zeroDivisor) :
    r.run = .error .zeroDivisor
      ∨ ∃ b, r.run = .ok b
        ∧ (b.equalsZero = .ok true ∨ (b.equalsZero = .ok false ∧ l.run = .error .zeroDivisor)) := by
  rcases bind_eq_error_iff.mp h with hright | ⟨b, hr, h⟩
  · exact .inl hright
  · refine .inr ⟨b, hr, ?_⟩
    rcases bind_eq_error_iff.mp h with hsignal | ⟨zero, hcompared, h⟩
    · exact absurd hsignal (signal_ne_zeroDivisor _)
    · have hb := mapError_eq_ok_iff.mp hcompared
      cases zero with
      | true => exact .inl hb
      | false =>
        rcases bind_eq_error_iff.mp h with hleft | ⟨a, -, hsignal⟩
        · exact .inr ⟨hb, hleft⟩
        · exact absurd hsignal (signal_ne_zeroDivisor _)

/-- Any other operation does only if one of its sides has. -/
theorem run_binary_eq_zeroDivisor {op : Operator} (hop : op ≠ .div) {l r : Tree}
    (h : (binary op l r).run = .error .zeroDivisor) :
    l.run = .error .zeroDivisor ∨ ∃ a, l.run = .ok a ∧ r.run = .error .zeroDivisor := by
  rw [run_binary hop] at h
  rcases bind_eq_error_iff.mp h with hleft | ⟨a, hl, h⟩
  · exact .inl hleft
  · rcases bind_eq_error_iff.mp h with hright | ⟨b, -, hsignal⟩
    · exact .inr ⟨a, hl, hright⟩
    · exact absurd hsignal (signal_ne_zeroDivisor _)

theorem exists_reached_of_zeroDivisor {t : Tree} (h : t.run = .error .zeroDivisor) :
    ∃ u, t.Reached u ∧ u.IsZeroDivision := by
  induction t with
  | literal d => cases h
  | group t ih =>
    obtain ⟨u, hu, hzero⟩ := ih h
    exact ⟨u, .group hu, hzero⟩
  | negate t ih =>
    rcases bind_eq_error_iff.mp h with hinner | ⟨x, -, hsignal⟩
    · obtain ⟨u, hu, hzero⟩ := ih hinner
      exact ⟨u, .negate hu, hzero⟩
    · exact absurd hsignal (signal_ne_zeroDivisor _)
  | binary op l r ihl ihr =>
    by_cases hop : op = .div
    · subst hop
      rcases run_div_eq_zeroDivisor h with hright | ⟨b, hr, hb | ⟨hb, hleft⟩⟩
      · obtain ⟨u, hu, hzero⟩ := ihr hright
        exact ⟨u, .divisor hu, hzero⟩
      · exact ⟨_, .here _, l, r, b, rfl, hr, hb⟩
      · obtain ⟨u, hu, hzero⟩ := ihl hleft
        exact ⟨u, .dividend hr hb hu, hzero⟩
    · rcases run_binary_eq_zeroDivisor hop h with hleft | ⟨a, hl, hright⟩
      · obtain ⟨u, hu, hzero⟩ := ihl hleft
        exact ⟨u, .left hop hu, hzero⟩
      · obtain ⟨u, hu, hzero⟩ := ihr hright
        exact ⟨u, .right hop hl hu, hzero⟩

/-- **Every divisor of zero that is reached is reported**, and nothing else is reported as one. -/
theorem run_eq_zeroDivisor_iff {t : Tree} :
    t.run = .error .zeroDivisor ↔ ∃ u, t.Reached u ∧ u.IsZeroDivision := by
  constructor
  · exact exists_reached_of_zeroDivisor
  · rintro ⟨u, hu, hzero⟩
    exact hu.error hzero.run_eq

theorem run_cases (t : Tree) :
    (∃ d, t.run = .ok (.finite d) ∧ t.evaluate = .ok d)
      ∨ (t.run = .error .zeroDivisor ∧ t.evaluate = .error .divisionByZero)
      ∨ (t.run = .error (.signal .overflow) ∧ t.evaluate = .error .overflow) := by
  rw [run_eq]
  cases t.evaluate with
  | ok d => exact .inl ⟨d, rfl, rfl⟩
  | error fault =>
    cases fault with
    | divisionByZero => exact .inr (.inl ⟨rfl, rfl⟩)
    | overflow => exact .inr (.inr ⟨rfl, rfl⟩)

theorem forall_run_eq_ok {t : Tree} {p : Extended → Prop} :
    (∀ x, t.run = .ok x → p x) ↔ ∀ d, t.evaluate = .ok d → p (.finite d) := by
  rw [run_eq]
  cases t.evaluate with
  | ok d => simp [ofOutcome, Except.mapError, Except.map]
  | error fault => simp [ofOutcome, Except.mapError, Except.map]

/-- **The levels that the arithmetic of numbers needs are enough** for the whole of it. -/
theorem run_limited (t : Tree) (n : Nat) : Limited (t.calls ≤ n) t.run (t.runWithin n) := by
  have hsignal {α : Type} (x : Except Signal α) : Limited True (x.mapError Raised.signal)
      (x.mapError (Halt.fault ∘ Raised.signal)) := by
    cases x <;> exact .of trivial
  induction t generalizing n with
  | literal d =>
    cases n with
    | zero => exact .of_not (Nat.not_succ_le_zero _)
    | succ n => exact .of (Nat.succ_le_succ (Nat.zero_le n))
  | group t ih =>
    cases n with
    | zero => exact .of_not (Nat.not_succ_le_zero _)
    | succ n => exact (ih n).congr Nat.succ_le_succ_iff.symm
  | negate t ih =>
    cases n with
    | zero => exact .of_not (Nat.not_succ_le_zero _)
    | succ n => exact ((ih n).bind fun _ x _ => hsignal x.neg).congr (by simp [calls])
  | binary op l r ihl ihr =>
    cases n with
    | zero => exact .of_not (by cases op <;> exact Nat.not_succ_le_zero _)
    | succ n =>
      by_cases hop : op = .div
      · subst hop
        have hdivided (b : Extended) (zero : Bool) : Limited (zero = false → l.calls ≤ n)
            (if zero then .error .zeroDivisor else l.run >>= fun a => (a.div b).mapError .signal)
            (if zero then .error (.fault .zeroDivisor)
              else l.runWithin n >>= fun a => (a.div b).mapError (.fault ∘ .signal)) := by
          cases zero with
          | true => exact .of fun h => Bool.noConfusion h
          | false => exact ((ihl n).bind fun _ a _ => hsignal (a.div b)).congr (by simp)
        refine ((ihr n).bind fun _ b _ => (hsignal b.equalsZero).bind fun _ zero _ =>
          hdivided b zero).congr ?_
        rw [calls_div_le_iff, forall_run_eq_ok]
        simp [Extended.equalsZero, Except.mapError]
      · have hboth : Limited (l.calls ≤ n ∧ ∀ a, l.run = .ok a → r.calls ≤ n)
            (l.run >>= fun a => r.run >>= fun b => (op.run a b).mapError .signal)
            (l.runWithin n >>= fun a => r.runWithin n >>= fun b =>
              (op.run a b).mapError (.fault ∘ .signal)) :=
          (ihl n).bind fun _ a _ => ((ihr n).bind fun _ b _ => hsignal (op.run a b)).congr (by simp)
        have hcalls : (l.calls ≤ n ∧ ∀ a, l.run = .ok a → r.calls ≤ n)
            ↔ (binary op l r).calls ≤ n + 1 := by
          rw [calls_binary_le_iff hop, forall_run_eq_ok]
        cases op with
        | div => exact absurd rfl hop
        | add | sub | mul => exact hboth.congr hcalls

end Tree

/-! ## Texts -/

/-- Why a text has no value. -/
inductive TextFault where
  /-- The text is not an expression. -/
  | malformed (fault : SyntaxFault)
  /-- The evaluation was ended. -/
  | raised (reason : Raised)
  deriving DecidableEq, Repr

/-- The value of an expression without tokens, in the whole of decimal arithmetic. -/
def runText (cs : List Char) (depth : Nat) : Except TextFault Extended := do
  let tree ← (Tree.ofText cs depth).mapError .malformed
  tree.run.mapError .raised

/-- A number of a text is always read. -/
theorem exists_read?_of_scan {cs : List Char} {lexemes : List Lexeme} {l : Lexeme} {ds : List Char}
    (hscan : Lexeme.scan cs = .ok lexemes) (hl : l ∈ lexemes) (hnumber : l.symbol = .number ds) :
    ∃ d, Decimal.read? ds = some d := by
  have hspells : Spells cs (lexemes.map (·.symbol)) := scan_iff_spells.mp ⟨lexemes, hscan, rfl⟩
  have hmem : Symbol.number ds ∈ lexemes.map (·.symbol) := by
    rw [← hnumber]
    exact List.mem_map_of_mem hl
  obtain ⟨d, hread, -⟩ := (hspells.isNumber ds hmem).exists_read?
  exact ⟨d, hread⟩

/-- A text has a number as its value, or fails in one of three ways. -/
theorem runText_cases (cs : List Char) (depth : Nat) :
    (∃ d, runText cs depth = .ok (.finite d) ∧ evaluateText cs depth = .ok d)
      ∨ (∃ fault, runText cs depth = .error (.malformed fault)
        ∧ evaluateText cs depth = .error (.malformed fault))
      ∨ (runText cs depth = .error (.raised .zeroDivisor)
        ∧ evaluateText cs depth = .error .divisionByZero)
      ∨ (runText cs depth = .error (.raised (.signal .overflow))
        ∧ evaluateText cs depth = .error .overflow) := by
  unfold runText evaluateText
  cases Tree.ofText cs depth with
  | error fault => exact .inr (.inl ⟨fault, rfl, rfl⟩)
  | ok t =>
    show (∃ d, t.run.mapError _ = _ ∧ t.evaluate.mapError _ = _)
      ∨ (∃ _, t.run.mapError _ = _ ∧ t.evaluate.mapError _ = _)
      ∨ (t.run.mapError _ = _ ∧ t.evaluate.mapError _ = _)
      ∨ (t.run.mapError _ = _ ∧ t.evaluate.mapError _ = _)
    rcases t.run_cases with ⟨d, hrun, hvalue⟩ | ⟨hrun, hvalue⟩ | ⟨hrun, hvalue⟩
    · rw [hrun, hvalue]
      exact .inl ⟨d, rfl, rfl⟩
    · rw [hrun, hvalue]
      exact .inr (.inr (.inl ⟨rfl, rfl⟩))
    · rw [hrun, hvalue]
      exact .inr (.inr (.inr ⟨rfl, rfl⟩))

theorem runText_eq_zeroDivisor_iff {cs : List Char} {depth : Nat} :
    runText cs depth = .error (.raised .zeroDivisor)
      ↔ ∃ t u, Tree.ofText cs depth = .ok t ∧ t.Reached u ∧ u.IsZeroDivision := by
  unfold runText
  cases htree : Tree.ofText cs depth with
  | error fault => simp [Except.mapError, bind, Except.bind]
  | ok t =>
    have hrun : (∃ fault, t.run = .error fault ∧ TextFault.raised fault = .raised .zeroDivisor)
        ↔ t.run = .error .zeroDivisor := by simp
    show t.run.mapError TextFault.raised = _ ↔ _
    rw [mapError_eq_error_iff, hrun, Tree.run_eq_zeroDivisor_iff]
    constructor
    · rintro ⟨u, hu, hzero⟩
      exact ⟨t, u, rfl, hu, hzero⟩
    · rintro ⟨t, u, ht, hu, hzero⟩
      cases ht
      exact ⟨u, hu, hzero⟩

/-- The value of an expression without tokens in the whole of decimal arithmetic, on a stack with
`levels` left. -/
def runTextWithin (cs : List Char) (depth levels : Nat) : Except (Halt TextFault) Extended := do
  let tree ← (Tree.ofTextWithin cs depth (levels - 1)).mapError (.map .malformed)
  (tree.runWithin (levels - 1)).mapError (.map .raised)

theorem runText_limited (cs : List Char) (depth levels : Nat) :
    Limited (TextFits cs depth levels) (runText cs depth) (runTextWithin cs depth levels) := by
  have hread := (ofText_limited cs depth (levels - 1)).mapError TextFault.malformed
  have hvalue (t : Tree) := (t.run_limited (levels - 1)).mapError TextFault.raised
  refine (hread.bind fun _ t _ => hvalue t).congr ?_
  simp only [mapError_eq_ok_iff]
  exact ⟨fun h => ⟨h.1, h.2⟩, fun h => ⟨h.read, h.evaluated⟩⟩

theorem runTextWithin_cases (cs : List Char) (depth levels : Nat) :
    (∃ d, runTextWithin cs depth levels = .ok (.finite d)
        ∧ evaluateTextWithin cs depth levels = .ok d)
      ∨ (∃ fault, runTextWithin cs depth levels = .error (.fault (.malformed fault))
        ∧ evaluateTextWithin cs depth levels = .error (.fault (.malformed fault)))
      ∨ (runTextWithin cs depth levels = .error (.fault (.raised .zeroDivisor))
        ∧ evaluateTextWithin cs depth levels = .error (.fault .divisionByZero))
      ∨ (runTextWithin cs depth levels = .error (.fault (.raised (.signal .overflow)))
        ∧ evaluateTextWithin cs depth levels = .error (.fault .overflow))
      ∨ (runTextWithin cs depth levels = .error .stack
        ∧ evaluateTextWithin cs depth levels = .error .stack) := by
  have hrun := runText_limited cs depth levels
  have hvalue := evaluateText_limited cs depth levels
  by_cases hfits : TextFits cs depth levels
  · rw [hrun.within hfits, hvalue.within hfits]
    rcases runText_cases cs depth with ⟨d, h, h'⟩ | ⟨fault, h, h'⟩ | ⟨h, h'⟩ | ⟨h, h'⟩
    · rw [h, h']
      exact .inl ⟨d, rfl, rfl⟩
    · rw [h, h']
      exact .inr (.inl ⟨fault, rfl, rfl⟩)
    · rw [h, h']
      exact .inr (.inr (.inl ⟨rfl, rfl⟩))
    · rw [h, h']
      exact .inr (.inr (.inr (.inl ⟨rfl, rfl⟩)))
  · exact .inr (.inr (.inr (.inr ⟨hrun.beyond hfits, hvalue.beyond hfits⟩)))

end Expression

theorem evaluateText_ne_notFinite (cs : List Char) (depth : Nat) (value : String) :
    evaluateText cs depth ≠ .error (.notFinite value) := by
  rcases runText_cases cs depth with ⟨d, -, h⟩ | ⟨fault, -, h⟩ | ⟨-, h⟩ | ⟨-, h⟩ <;> simp [h]

theorem toPrice_ne_notFinite (d : Decimal) (value : String) :
    d.toPrice ≠ .error (.notFinite value) := by
  unfold Decimal.toPrice
  cases d.toInteger? d.widePrecision <;> simp

theorem evaluateWithin_ne_notFinite (expression : String) (tokens : OrderedMap Contribution)
    (range : PriceRange) (depth levels : Nat) (value : String) :
    evaluateWithin expression tokens range depth levels ≠ .error (.fault (.notFinite value)) := by
  intro h
  rcases bind_eq_error_iff.mp h with hvalue | ⟨d, -, h⟩
  · exact evaluateText_ne_notFinite _ _ _ ((evaluateText_limited _ _ _).eq_fault_iff.mp hvalue).2
  · rcases bind_eq_error_iff.mp h with hprice | ⟨price, -, h⟩
    · obtain ⟨fault, hfault, heq⟩ := mapError_eq_error_iff.mp hprice
      cases heq
      exact toPrice_ne_notFinite d value hfault
    · cases h

/-- **Evaluation stays finite and fails in one of three ways, unless the stack is too low.** A text
has a number as its value, or it is malformed, or a divisor is zero, or a result is too large, or
the levels do not suffice, which they do exactly if there are enough for reading the text and for
evaluating its tree. With three levels for each parenthesis or minus that may be open, only the
evaluation can need more, and not for a text that has fewer characters than there are levels. It
ends with a divisor of zero exactly if it reaches a quotient with one, and with no other signal than
that a result is too large: every number of a text is read, and no tree has a value that is no
number. So no price is refused for a value that is no number. -/
theorem evaluation_stays_finite (cs : List Char) (depth levels : Nat) :
    ((∃ d, runTextWithin cs depth levels = .ok (.finite d)
          ∧ evaluateTextWithin cs depth levels = .ok d)
        ∨ (∃ fault, runTextWithin cs depth levels = .error (.fault (.malformed fault))
          ∧ evaluateTextWithin cs depth levels = .error (.fault (.malformed fault)))
        ∨ (runTextWithin cs depth levels = .error (.fault (.raised .zeroDivisor))
          ∧ evaluateTextWithin cs depth levels = .error (.fault .divisionByZero))
        ∨ (runTextWithin cs depth levels = .error (.fault (.raised (.signal .overflow)))
          ∧ evaluateTextWithin cs depth levels = .error (.fault .overflow))
        ∨ (runTextWithin cs depth levels = .error .stack
          ∧ evaluateTextWithin cs depth levels = .error .stack))
      ∧ (evaluateTextWithin cs depth levels = .error .stack ↔ ¬TextFits cs depth levels)
      ∧ (TextFits cs depth levels →
        evaluateTextWithin cs depth levels = (evaluateText cs depth).mapError .fault)
      ∧ (Parser.groundCalls + 3 * depth < levels →
        (TextFits cs depth levels ↔ ∀ t, Tree.ofText cs depth = .ok t → t.calls < levels)
          ∧ (cs.length < levels → TextFits cs depth levels))
      ∧ (runTextWithin cs depth levels = .error (.fault (.raised .zeroDivisor))
        ↔ TextFits cs depth levels
          ∧ ∃ t u, Tree.ofText cs depth = .ok t ∧ t.Reached u ∧ u.IsZeroDivision)
      ∧ (∀ lexemes, Lexeme.scan cs = .ok lexemes → ∀ l ∈ lexemes, ∀ ds, l.symbol = .number ds →
        ∃ d, Decimal.read? ds = some d)
      ∧ (∀ t : Tree, (∃ d, t.runWithin levels = .ok (.finite d))
        ∨ t.runWithin levels = .error (.fault .zeroDivisor)
        ∨ t.runWithin levels = .error (.fault (.signal .overflow))
        ∨ t.runWithin levels = .error .stack ∧ levels < t.calls)
      ∧ (∀ x value, runTextWithin cs depth levels = .ok x →
        x.toPrice ≠ .error (.evaluation (.notFinite value)))
      ∧ ∀ expression tokens range value,
        evaluateWithin expression tokens range depth levels
          ≠ .error (.fault (.notFinite value)) := by
  have htext := evaluateText_limited cs depth levels
  refine ⟨runTextWithin_cases cs depth levels, htext.eq_stack_iff, htext.within,
    fun hlevels => ⟨textFits_iff hlevels, textFits_of_length hlevels⟩, ?_,
    fun _ hscan _ hl _ hds => exists_read?_of_scan hscan hl hds, fun t => ?_,
    fun x value hx hprice => ?_,
    fun _ _ _ _ => evaluateWithin_ne_notFinite _ _ _ _ _ _⟩
  · rw [(runText_limited cs depth levels).eq_fault_iff, runText_eq_zeroDivisor_iff]
  · have hlimited := t.run_limited levels
    by_cases hlevels : t.calls ≤ levels
    · rw [hlimited.within hlevels]
      rcases t.run_cases with ⟨d, h, -⟩ | ⟨h, -⟩ | ⟨h, -⟩
      · exact .inl ⟨d, by rw [h]; rfl⟩
      · exact .inr (.inl (by rw [h]; rfl))
      · exact .inr (.inr (.inl (by rw [h]; rfl)))
    · exact .inr (.inr (.inr ⟨hlimited.beyond hlevels, Nat.not_le.mp hlevels⟩))
  · have hvalue := ((runText_limited cs depth levels).eq_ok_iff.mp hx).2
    rcases runText_cases cs depth with ⟨d, h, -⟩ | ⟨fault, h, -⟩ | ⟨h, -⟩ | ⟨h, -⟩
    all_goals rw [hvalue] at h; cases h
    have hrounded : d.roundToPrice = .error (.evaluation (.notFinite value)) := hprice
    unfold Decimal.roundToPrice at hrounded
    split at hrounded
    · cases hrounded
    · obtain ⟨fault, hfault, heq⟩ := mapError_eq_error_iff.mp hrounded
      cases heq
      exact toPrice_ne_notFinite d value hfault

/-- Zero divided by zero has no result, but the divisor is reported before the division is tried, as
long as there are levels for all the text. -/
theorem evaluation_stays_finite_quotient :
    Extended.div (.finite ⟨false, 0, 0⟩) (.finite ⟨false, 0, 0⟩) = .error .invalidOperation
      ∧ runTextWithin "0 / (2 - 2)".toList 1 12 = .error (.fault (.raised .zeroDivisor))
      ∧ evaluateTextWithin "0 / (2 - 2)".toList 1 4 = .error .stack := by
  let two : Tree := .literal ⟨false, 2, 0⟩
  let t : Tree := .binary .div (.literal ⟨false, 0, 0⟩) (.group (.binary .sub two two))
  have htree : Tree.ofText "0 / (2 - 2)".toList 1 = .ok t := by decide
  have hdivisor : (Tree.group (.binary .sub two two)).run = .ok (.finite ⟨false, 0, 0⟩) := rfl
  obtain ⟨-, -, -, hlevels, hzero, -⟩ := evaluation_stays_finite "0 / (2 - 2)".toList 1 12
  obtain ⟨-, hlow, -⟩ := evaluation_stays_finite "0 / (2 - 2)".toList 1 4
  have hfits : TextFits "0 / (2 - 2)".toList 1 12 := (hlevels (by decide)).2 (by decide)
  refine ⟨rfl, hzero.mpr ⟨hfits, t, t, htree, .here t, _, _, _, rfl, hdivisor, rfl⟩,
    hlow.mpr fun h => ?_⟩
  have hcalls : t.calls ≤ 3 := h.evaluated t htree
  exact absurd hcalls (by decide)

/-! ## Sums of ones -/

namespace Expression

/-- A sum of `n + 1` ones. -/
def Tree.ones : Nat → Tree
  | 0 => .literal ⟨false, 1, 0⟩
  | n + 1 => .binary .add (ones n) (.literal ⟨false, 1, 0⟩)

namespace Tree

theorem shaped_ones (n : Nat) : (ones n).Shaped .sum := by
  have hone : (Tree.literal ⟨false, 1, 0⟩).Shaped .product := .ofFactor (.literal (by decide))
  induction n with
  | zero => exact .ofProduct hone
  | succ n ih => exact .sum (.inl rfl) ih hone

theorem nesting_ones (n : Nat) : (ones n).nesting = 0 := by
  induction n with
  | zero => rfl
  | succ n ih => exact Nat.max_eq_zero_iff.mpr ⟨ih, rfl⟩

theorem evaluate_ones {n : Nat} (hn : n + 1 < 10 ^ Decimal.precision) :
    (ones n).evaluate = .ok ⟨false, n + 1, 0⟩ := by
  induction n with
  | zero => rfl
  | succ n ih =>
    have hsum : Decimal.add? ⟨false, n + 1, 0⟩ ⟨false, 1, 0⟩ = some ⟨false, n + 2, 0⟩ :=
      Decimal.add?_whole (n + 1) 1 hn
    refine bind_eq_ok_iff.mpr ⟨_, ih (by omega), bind_eq_ok_iff.mpr ⟨_, rfl, ?_⟩⟩
    rw [Operator.apply, hsum]
    rfl

/-- **A sum needs a level for every part.** -/
theorem calls_ones {n : Nat} (hn : n < 10 ^ Decimal.precision) : (ones n).calls = n + 1 := by
  induction n with
  | zero => rfl
  | succ n ih =>
    have hleft := ih (by omega)
    have hcalls : (ones (n + 1)).calls
        = max (ones n).calls (if (ones n).evaluate.isOk then 1 else 0) + 1 := rfl
    rw [hcalls, evaluate_ones hn, hleft]
    simp [Except.isOk, Except.toBool]

end Tree

theorem ofText_ones (n limit : Nat) : Tree.ofText (Tree.ones n).text limit = .ok (Tree.ones n) := by
  have hshaped := Tree.shaped_ones n
  have hlimit : (Tree.ones n).nesting ≤ limit := by
    rw [Tree.nesting_ones]
    exact Nat.zero_le limit
  exact ofText_of_spells (Tree.spells_text _) (hshaped.derives hshaped.inOrder_symbols) hlimit

/-- A sum of ones is on no stack evaluated that is not higher than it has parts. -/
theorem evaluateTextWithin_ones {n depth levels : Nat} (hn : n < 10 ^ Decimal.precision)
    (hlevels : levels ≤ n + 1) :
    evaluateTextWithin (Tree.ones n).text depth levels = .error .stack := by
  refine (evaluateText_limited ..).beyond fun hfits => ?_
  have hcalls : (Tree.ones n).calls ≤ levels - 1 :=
    hfits.evaluated _ (ofText_ones n depth)
  rw [Tree.calls_ones hn] at hcalls
  omega

end Expression

/-- **Arithmetic does not end evaluation alone**: a thousand and one ones are written without a
parenthesis and have a sum, but there are not levels enough to compute it. -/
theorem evaluation_exhausts_stack :
    evaluateText (Tree.ones 1000).text defaultDepth = .ok ⟨false, 1001, 0⟩
      ∧ evaluateTextWithin (Tree.ones 1000).text defaultDepth defaultLevels = .error .stack := by
  refine ⟨?_, evaluateTextWithin_ones (by decide) (by decide)⟩
  exact bind_eq_ok_iff.mpr ⟨Tree.ones 1000, mapError_eq_ok_iff.mpr (ofText_ones 1000 _),
    mapError_eq_ok_iff.mpr (Tree.evaluate_ones (by decide))⟩

end Tariff

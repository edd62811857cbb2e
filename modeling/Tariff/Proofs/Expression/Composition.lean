import Tariff.Proofs.Expression.Factor
import Tariff.Proofs.Numeral.Digits
import Tariff.Proofs.OrderedMap

/-!
# Prices are composed

A formula is written with names for the answers of a customer, and these are put in as texts. The
main result says that nothing of this shows: the text that is left evaluates to what the formula
says, with each name standing for the value of its own contribution (`evaluateText_substitute`).
Operations are neither regrouped by what stands for a name, nor are names in it replaced again.

`Template` is an expression with names. `Written` relates it to its texts, with blanks anywhere
between the lexemes, and `Template.evaluate` computes it directly. The proof follows the text:
substitution works on the two sides of every operation on its own (`Written.substituted`), so the
text that is left spells a row that the grammar derives the filled-in tree from.
-/

namespace Tariff.Expression

open Numeral Text

/-! ## Expressions with names -/

/-- A name: letters, digits and underscores, not starting with a digit. -/
def IsIdentifier (id : String) : Prop :=
  IsWord id.toList ∧ isName id.toList = true

instance (id : String) : Decidable (IsIdentifier id) :=
  inferInstanceAs (Decidable (_ ∧ _))

/-- An expression in which names stand for numbers. -/
inductive Template where
  /-- A number as it was written. -/
  | literal (value : Decimal)
  /-- A name. -/
  | name (id : String)
  /-- A minus in front of an expression. -/
  | negate (inner : Template)
  /-- An expression between parentheses. -/
  | group (inner : Template)
  /-- An operation on two expressions. -/
  | binary (op : Operator) (left right : Template)

namespace Template

/-- The value of an expression whose names have values, or have none. Every operation is the one on
trees, and a divisor is computed, and found to be zero, before its dividend. -/
def evaluate (env : String → Except EvaluationFault Decimal) :
    Template → Except EvaluationFault Decimal
  | literal d => .ok d
  | name id => env id
  | group t => t.evaluate env
  | negate t => do
    let d ← t.evaluate env
    d.neg?.elim (.error .overflow) .ok
  | binary .div l r => do
    let b ← r.evaluate env
    if b.isZero then .error .divisionByZero
    else
      let a ← l.evaluate env
      (Operator.div.apply a b).mapError .ofArithmetic
  | binary op l r => do
    let a ← l.evaluate env
    let b ← r.evaluate env
    (op.apply a b).mapError .ofArithmetic

/-- An expression with trees in the places of its names. -/
def fill (trees : String → Tree) : Template → Tree
  | literal d => .literal d
  | name id => trees id
  | negate t => .negate (t.fill trees)
  | group t => .group (t.fill trees)
  | binary op l r => .binary op (l.fill trees) (r.fill trees)

end Template

/-- How an expression is written at a level of the grammar, with any blanks between its lexemes. A
number is written with or without a point. -/
inductive Written : Level → Template → List Char → Prop where
  | whole {ds : List Char} (hds : IsDigits ds) (hne : ds ≠ []) :
      Written .factor (.literal ⟨false, ofDigits ds, 0⟩) ds
  | pointed {ds fs : List Char} (hds : IsDigits ds)
      (hfs : IsDigits fs) (hne : ds ≠ [] ∨ fs ≠ []) :
      Written .factor (.literal ⟨false, ofDigits (ds ++ fs), -fs.length⟩) (ds ++ '.' :: fs)
  | name {id : String} (hid : IsIdentifier id) : Written .factor (.name id) id.toList
  | negate {t : Template} {bs cs : List Char} (hbs : IsBlanks bs) (inner : Written .factor t cs) :
      Written .factor (.negate t) ('-' :: (bs ++ cs))
  | group {t : Template} {before cs after : List Char} (hbefore : IsBlanks before)
      (inner : Written .sum t cs) (hafter : IsBlanks after) :
      Written .factor (.group t) ('(' :: (before ++ (cs ++ (after ++ [')']))))
  | ofFactor {t : Template} {cs : List Char} (inner : Written .factor t cs) :
      Written .product t cs
  | product {op : Operator} {l r : Template} {ls before after rs : List Char}
      (hop : op = .mul ∨ op = .div) (left : Written .product l ls) (hbefore : IsBlanks before)
      (hafter : IsBlanks after) (right : Written .factor r rs) :
      Written .product (.binary op l r) (ls ++ (before ++ op.sign :: (after ++ rs)))
  | ofProduct {t : Template} {cs : List Char} (inner : Written .product t cs) :
      Written .sum t cs
  | sum {op : Operator} {l r : Template} {ls before after rs : List Char}
      (hop : op = .add ∨ op = .sub) (left : Written .sum l ls) (hbefore : IsBlanks before)
      (hafter : IsBlanks after) (right : Written .product r rs) :
      Written .sum (.binary op l r) (ls ++ (before ++ op.sign :: (after ++ rs)))

/-- A text of an expression, with any blanks around it. -/
def Template.WrittenAs (t : Template) (text : List Char) : Prop :=
  ∃ before cs after, IsBlanks before ∧ Written .sum t cs ∧ IsBlanks after
    ∧ text = before ++ (cs ++ after)

/-! ## The values of numbers -/

theorem IsNumberChar.ne_sign {c : Char} (h : IsNumberChar c) : c ≠ '-' ∧ c ≠ '+' := by
  constructor <;> rintro rfl <;> rcases h with h | h <;> revert h <;> decide

/-- A number starts with no sign. -/
theorem readSign_of_isNumberChar {c : Char} (h : IsNumberChar c) (cs : List Char) :
    Decimal.readSign (c :: cs) = (false, c :: cs) := by
  obtain ⟨hminus, hplus⟩ := h.ne_sign
  unfold Decimal.readSign
  split
  · next heq => exact absurd (List.cons.inj heq).1 hminus
  · next heq => exact absurd (List.cons.inj heq).1 hplus
  · rfl

theorem takeWhile_isDigit {ds cs : List Char} (hds : IsDigits ds)
    (hcs : ∀ c, cs.head? = some c → isDigit c = false) :
    (ds ++ cs).takeWhile isDigit = ds := by
  rw [List.takeWhile_append_of_pos fun c hc => isDigit_of_isAsciiDigit (hds c hc)]
  cases cs with
  | nil => simp
  | cons c cs => simp [hcs c rfl]

theorem dropWhile_isDigit {ds cs : List Char} (hds : IsDigits ds)
    (hcs : ∀ c, cs.head? = some c → isDigit c = false) :
    (ds ++ cs).dropWhile isDigit = cs := by
  rw [List.dropWhile_append_of_pos fun c hc => isDigit_of_isAsciiDigit (hds c hc)]
  cases cs with
  | nil => rfl
  | cons c cs => simp [hcs c rfl]

/-- Digits behind a sign spell a whole number. -/
theorem read?_of_readSign {cs ds : List Char} {neg : Bool} (hsign : Decimal.readSign cs = (neg, ds))
    (hds : IsDigits ds) (hne : ds ≠ []) : Decimal.read? cs = some ⟨neg, ofDigits ds, 0⟩ := by
  have hstop : ∀ c, ([] : List Char).head? = some c → isDigit c = false := by
    intro c hc
    cases hc
  have htake := takeWhile_isDigit hds hstop
  have hdrop := dropWhile_isDigit hds hstop
  rw [List.append_nil] at htake hdrop
  simp [Decimal.read?, hsign, htake, hdrop, hne, Decimal.readExponent?]

/-- Digits spell a whole number. -/
theorem read?_whole {ds : List Char} (hds : IsDigits ds) (hne : ds ≠ []) :
    Decimal.read? ds = some ⟨false, ofDigits ds, 0⟩ := by
  refine read?_of_readSign ?_ hds hne
  obtain ⟨c, cs, rfl⟩ := List.exists_cons_of_ne_nil hne
  exact readSign_of_isNumberChar (Or.inl (hds c List.mem_cons_self)) cs

theorem literal_whole {ds : List Char} (hds : IsDigits ds) (hne : ds ≠ []) :
    Parser.literal ds = .literal ⟨false, ofDigits ds, 0⟩ := by
  rw [Parser.literal, read?_whole hds hne]
  rfl

theorem literal_digits (n : Nat) : Parser.literal (digits n) = .literal ⟨false, n, 0⟩ := by
  rw [literal_whole (isDigits_digits n) (digits_ne_nil n), ofDigits_digits]

/-- The digits of a number are read as the number. -/
theorem ofText_digits (n limit : Nat) :
    Tree.ofText (digits n) limit = .ok (.literal ⟨false, n, 0⟩) := by
  rw [← literal_digits]
  refine ofText_of_spells (.of_isNumber (isNumber_digits n)) (.ofProduct (.ofFactor (.number _))) ?_
  rw [literal_digits]
  exact Nat.zero_le limit

/-- Digits around a point spell a number that counts the digits behind the point. -/
theorem read?_pointed {ds fs : List Char} (hds : IsDigits ds) (hfs : IsDigits fs)
    (hne : ds ≠ [] ∨ fs ≠ []) :
    Decimal.read? (ds ++ '.' :: fs) = some ⟨false, ofDigits (ds ++ fs), -fs.length⟩ := by
  have hpoint : ∀ c, ('.' :: fs).head? = some c → isDigit c = false := by
    intro c hc
    cases hc
    decide
  have hstop : ∀ c, ([] : List Char).head? = some c → isDigit c = false := by
    intro c hc
    cases hc
  have htake := takeWhile_isDigit hfs hstop
  have hdrop := dropWhile_isDigit hfs hstop
  rw [List.append_nil] at htake hdrop
  have hsign : Decimal.readSign (ds ++ '.' :: fs) = (false, ds ++ '.' :: fs) := by
    cases ds with
    | nil => exact readSign_of_isNumberChar (Or.inr rfl) fs
    | cons c cs => exact readSign_of_isNumberChar (Or.inl (hds c List.mem_cons_self)) _
  have hsome : ¬ (ds = [] ∧ fs = []) := by
    rintro ⟨rfl, rfl⟩
    simp at hne
  simp only [Decimal.read?, hsign, takeWhile_isDigit hds hpoint, dropWhile_isDigit hds hpoint,
    htake, hdrop]
  simp [hsome, Decimal.readExponent?]

theorem literal_pointed {ds fs : List Char} (hds : IsDigits ds)
    (hfs : IsDigits fs) (hne : ds ≠ [] ∨ fs ≠ []) :
    Parser.literal (ds ++ '.' :: fs)
      = .literal ⟨false, ofDigits (ds ++ fs), -fs.length⟩ := by
  rw [Parser.literal, read?_pointed hds hfs hne]
  rfl

/-! ## What substitution leaves of an expression -/

/-- Every token is a name. -/
def Replacements.Names (tokens : Replacements) : Prop :=
  ∀ t ∈ tokens, IsWord t.1 ∧ isName t.1 = true

theorem Replacements.Names.words {tokens : Replacements} (h : tokens.Names) : tokens.Words :=
  fun t ht => (h t ht).1

/-- The text of a number is left alone. -/
theorem substitute_number {tokens : Replacements} (htokens : tokens.Names) {ds : List Char}
    (hds : IsNumber ds) : (substitute ds tokens).text = ds := by
  have hnoname : ∀ w, Piece.word w ∈ pieces ds → isName w = false := fun w hw =>
    isName_of_mem_pieces (digit_of_mem_isNumber hds) hw
  have hnotoken : ∀ w, Piece.word w ∈ pieces ds → tokens.lookup w = none := by
    intro w hw
    rw [lookup_eq_none_iff]
    intro hmem
    obtain ⟨t, ht, rfl⟩ := List.mem_map.mp hmem
    have hname := (htokens t ht).2
    rw [hnoname t.1 hw] at hname
    cases hname
  rw [substitute_text, replaceTokens_eq_self htokens.words hnotoken, zeroed_eq_self hnoname]

theorem Operator.ofChar?_sign (op : Operator) :
    Symbol.ofChar? op.sign = some (.operator op) := by
  cases op <;> rfl

theorem Operator.not_isWordChar_sign (op : Operator) : isWordChar op.sign = false := by
  cases op <;> decide

theorem Operator.sign_ne_point (op : Operator) : op.sign ≠ '.' := by
  cases op <;> decide

theorem Operator.not_isNumberChar_sign (op : Operator) : ¬ IsNumberChar op.sign := by
  rintro (h | h) <;> cases op <;> revert h <;> decide

/-- The two sides of an operation are substituted on their own. -/
theorem substitute_operation {tokens : Replacements} (htokens : tokens.Words) (op : Operator)
    {before after : List Char} (hbefore : IsBlanks before) (hafter : IsBlanks after)
    (ls rs : List Char) :
    (substitute (ls ++ (before ++ op.sign :: (after ++ rs))) tokens).text
      = (substitute ls tokens).text
        ++ (before ++ op.sign :: (after ++ (substitute rs tokens).text)) := by
  have hsign : startsInWord (op.sign :: (after ++ rs)) = false := op.not_isWordChar_sign
  rw [substitute_append htokens ls (startsInWord_blanks_append hbefore hsign),
    substitute_blanks htokens hbefore,
    substitute_gap htokens op.not_isWordChar_sign op.sign_ne_point,
    substitute_blanks htokens hafter]

/-- An operation spells what its two sides spell, with its sign between. -/
theorem Spells.operation {ls rs before after : List Char} {left right : List Symbol}
    (hleft : Spells ls left) (op : Operator) (hbefore : IsBlanks before) (hafter : IsBlanks after)
    (hright : Spells rs right) :
    Spells (ls ++ (before ++ op.sign :: (after ++ rs))) (left ++ .operator op :: right) := by
  have hsign : Spells (op.sign :: (after ++ rs)) (.operator op :: right) :=
    .sign op.ofChar?_sign (hright.blanks_append hafter)
  refine hleft.append (hsign.blanks_append hbefore) fun c hc => ?_
  cases before with
  | nil =>
    cases hc
    exact op.not_isNumberChar_sign
  | cons b before =>
    cases hc
    exact not_isNumberChar_of_isBlank (hbefore c List.mem_cons_self)

/-- An expression between parentheses and blanks is substituted on its own. -/
theorem substitute_group {tokens : Replacements} (htokens : tokens.Words)
    {before after : List Char} (hbefore : IsBlanks before) (hafter : IsBlanks after)
    (cs : List Char) :
    (substitute ('(' :: (before ++ (cs ++ (after ++ [')'])))) tokens).text
      = '(' :: (before ++ ((substitute cs tokens).text ++ after) ++ [')']) := by
  have hclose : (substitute [')'] tokens).text = [')'] := by
    rw [substitute_gap htokens (by decide) (by decide), substitute_text,
      replaceTokens_nil tokens htokens]
    rfl
  have hmeet : startsInWord (after ++ [')']) = false :=
    startsInWord_blanks_append hafter (by decide)
  rw [substitute_gap htokens (by decide) (by decide), substitute_blanks htokens hbefore,
    substitute_append htokens cs hmeet, substitute_blanks htokens hafter, hclose]
  simp only [List.append_assoc]

/-- Blanks behind a text spell nothing. -/
theorem Spells.append_blanks {cs bs : List Char} {symbols : List Symbol} (h : Spells cs symbols)
    (hbs : IsBlanks bs) : Spells (cs ++ bs) symbols := by
  have hblanks : Spells bs [] := by
    have hspells := Spells.nil.blanks_append hbs
    rwa [List.append_nil] at hspells
  have happend := h.append hblanks fun c hc =>
    not_isNumberChar_of_isBlank (hbs c (List.mem_of_mem_head? hc))
  rwa [List.append_nil] at happend

/-- **What substitution leaves of an expression is derived from the filled-in expression**, if what
it leaves of every name is a factor. -/
theorem Written.substituted {tokens : Replacements} (htokens : tokens.Names)
    {trees : String → Tree}
    (htrees : ∀ id, IsIdentifier id → ∃ symbols,
      Spells (substitute id.toList tokens).text symbols ∧ Derives .factor (trees id) symbols)
    {level : Level} {t : Template} {cs : List Char} (h : Written level t cs) :
    ∃ symbols, Spells (substitute cs tokens).text symbols
      ∧ Derives level (t.fill trees) symbols := by
  have hwords := htokens.words
  induction h with
  | whole hds hne =>
    have hnumber := IsNumber.whole hds hne
    rw [substitute_number htokens hnumber, Template.fill, ← literal_whole hds hne]
    exact ⟨_, .of_isNumber hnumber, .number _⟩
  | pointed hds hfs hne =>
    have hnumber := IsNumber.pointed hds hfs hne
    rw [substitute_number htokens hnumber, Template.fill, ← literal_pointed hds hfs hne]
    exact ⟨_, .of_isNumber hnumber, .number _⟩
  | name hid => exact htrees _ hid
  | negate hbs _ ih =>
    obtain ⟨symbols, hspells, hderives⟩ := ih
    rw [substitute_gap hwords (by decide) (by decide), substitute_blanks hwords hbs]
    exact ⟨_, .sign rfl (hspells.blanks_append hbs), .negate hderives⟩
  | group hbefore _ hafter ih =>
    obtain ⟨symbols, hspells, hderives⟩ := ih
    rw [substitute_group hwords hbefore hafter]
    have hinner := (hspells.append_blanks hafter).blanks_append hbefore
    exact ⟨_, hinner.parenthesized, .group hderives⟩
  | ofFactor _ ih =>
    obtain ⟨symbols, hspells, hderives⟩ := ih
    exact ⟨symbols, hspells, .ofFactor hderives⟩
  | @product op l r ls before after rs hop _ hbefore hafter _ ihl ihr =>
    obtain ⟨left, hleft, hderivesl⟩ := ihl
    obtain ⟨right, hright, hderivesr⟩ := ihr
    rw [substitute_operation hwords op hbefore hafter]
    exact ⟨_, hleft.operation op hbefore hafter hright, .product hop hderivesl hderivesr⟩
  | ofProduct _ ih =>
    obtain ⟨symbols, hspells, hderives⟩ := ih
    exact ⟨symbols, hspells, .ofProduct hderives⟩
  | @sum op l r ls before after rs hop _ hbefore hafter _ ihl ihr =>
    obtain ⟨left, hleft, hderivesl⟩ := ihl
    obtain ⟨right, hright, hderivesr⟩ := ihr
    rw [substitute_operation hwords op hbefore hafter]
    exact ⟨_, hleft.operation op hbefore hafter hright, .sum hop hderivesl hderivesr⟩

/-- The same for a text of an expression with blanks around it. -/
theorem Template.WrittenAs.substituted {tokens : Replacements} (htokens : tokens.Names)
    {trees : String → Tree}
    (htrees : ∀ id, IsIdentifier id → ∃ symbols,
      Spells (substitute id.toList tokens).text symbols ∧ Derives .factor (trees id) symbols)
    {t : Template} {text : List Char} (h : t.WrittenAs text) :
    ∃ symbols, Spells (substitute text tokens).text symbols
      ∧ Derives .sum (t.fill trees) symbols := by
  obtain ⟨before, cs, after, hbefore, hcs, hafter, rfl⟩ := h
  obtain ⟨symbols, hspells, hderives⟩ := hcs.substituted htokens htrees
  rw [substitute_blanks htokens.words hbefore,
    substitute_append htokens.words cs (startsInWord_of_blanks hafter),
    substitute_of_blanks htokens.words hafter]
  exact ⟨symbols, (hspells.append_blanks hafter).blanks_append hbefore, hderives⟩

/-! ## The value of an expression -/

/-- What the names of an expression stand for: a token for the value of its contribution on its own,
and any other name for zero. -/
def environment (tokens : OrderedMap Contribution) (depth : Nat) (id : String) :
    Except EvaluationFault Decimal :=
  match tokens.find? id with
  | some c => c.value depth
  | none => .ok (.ofInt 0)

theorem mapError_bind {ε ε' α β : Type} {f : ε → ε'} (x : Except ε α) (g : α → Except ε β) :
    (x >>= g).mapError f = x.mapError f >>= fun a => (g a).mapError f := by
  cases x <;> rfl

/-- An operation has the value of the filled-in one, if its two sides have. -/
theorem Template.evaluate_binary {trees : String → Tree}
    {env : String → Except EvaluationFault Decimal} (op : Operator) {l r : Template}
    (hleft : l.evaluate env = (l.fill trees).evaluate.mapError .ofArithmetic)
    (hright : r.evaluate env = (r.fill trees).evaluate.mapError .ofArithmetic) :
    (binary op l r).evaluate env
      = ((binary op l r).fill trees).evaluate.mapError .ofArithmetic := by
  cases op with
  | div =>
    rw [evaluate, fill, Tree.evaluate, mapError_bind, hleft, hright]
    congr 1
    funext b
    split
    · rfl
    · rw [mapError_bind]
  | add | sub | mul =>
    simp only [evaluate, fill, Tree.evaluate, mapError_bind, hleft, hright]

/-- An expression has the value of the tree that its names are filled in to, if every name has the
value of its tree. -/
theorem Written.evaluate_fill {trees : String → Tree} {depth : Nat}
    {env : String → Except EvaluationFault Decimal}
    (henv : ∀ id, IsIdentifier id → (trees id).nesting ≤ depth →
      env id = (trees id).evaluate.mapError .ofArithmetic)
    {level : Level} {t : Template} {cs : List Char} (h : Written level t cs)
    (hdepth : (t.fill trees).nesting ≤ depth) :
    t.evaluate env = (t.fill trees).evaluate.mapError .ofArithmetic := by
  induction h with
  | whole | pointed => rfl
  | name hid => exact henv _ hid hdepth
  | negate _ _ ih =>
    rw [Template.evaluate, Template.fill, Tree.evaluate, mapError_bind,
      ih (Nat.le_of_succ_le hdepth)]
    congr 1
    funext d
    cases d.neg? <;> rfl
  | group _ _ _ ih => exact ih (Nat.le_of_succ_le hdepth)
  | ofFactor _ ih | ofProduct _ ih => exact ih hdepth
  | product _ _ _ _ _ ihl ihr | sum _ _ _ _ _ ihl ihr =>
    have hsides := Nat.max_le.mp hdepth
    exact Template.evaluate_binary _ (ihl hsides.1) (ihr hsides.2)

theorem lookup_replacements (tokens : OrderedMap Contribution) (id : String) :
    (replacements tokens).lookup id.toList = (tokens.find? id).map Contribution.factor := by
  unfold replacements OrderedMap.find?
  induction tokens with
  | nil => rfl
  | cons e tokens ih =>
    rw [List.map_cons, List.lookup_cons, List.lookup_cons, ih]
    have hkey : (id.toList == e.1.toList) = (id == e.1) := by
      rw [Bool.eq_iff_iff, beq_iff_eq, beq_iff_eq, String.toList_inj]
    rw [hkey]
    cases id == e.1 <;> rfl

theorem keys_replacements (tokens : OrderedMap Contribution) :
    (replacements tokens).map (·.1) = tokens.keys.map String.toList := by
  rw [replacements, OrderedMap.keys, List.map_map, List.map_map]
  rfl

theorem names_replacements {tokens : OrderedMap Contribution}
    (hnames : ∀ e ∈ tokens, IsIdentifier e.1) : (replacements tokens).Names := by
  intro t ht
  obtain ⟨e, he, rfl⟩ := List.mem_map.mp ht
  exact hnames e he

/-- What substitution leaves of a name is a factor with this tree, and the tree has the value that
the name stands for. -/
structure IsTreeOf (tokens : OrderedMap Contribution) (id : String) (t : Tree) : Prop where
  derives : ∃ symbols, Spells (substitute id.toList (replacements tokens)).text symbols
    ∧ Derives .factor t symbols
  value : ∀ depth, t.nesting ≤ depth →
    environment tokens depth id = t.evaluate.mapError .ofArithmetic

theorem exists_isTreeOf {tokens : OrderedMap Contribution}
    (hnames : ∀ e ∈ tokens, IsIdentifier e.1) (hstands : ∀ e ∈ tokens, e.2.Stands) {id : String}
    (hid : IsIdentifier id) : ∃ t, IsTreeOf tokens id t := by
  have htext : (substitute id.toList (replacements tokens)).text
      = zeroed (((tokens.find? id).map Contribution.factor).getD id.toList) := by
    rw [substitute_text, replaceTokens_word (names_replacements hnames).words hid.1,
      lookup_replacements]
  cases hfind : tokens.find? id with
  | none =>
    have hzero : IsNumber ['0'] := .whole (by decide) (by simp)
    have hzeroed : (substitute id.toList (replacements tokens)).text = ['0'] := by
      rw [htext, hfind]
      exact zeroed_name hid.1 hid.2
    refine ⟨.literal ⟨false, 0, 0⟩, ⟨_, ?_, .number ['0']⟩, fun depth _ => ?_⟩
    · rw [hzeroed]
      exact .of_isNumber hzero
    · rw [environment, hfind]
      rfl
  | some c =>
    have hmem : (id, c) ∈ tokens := OrderedMap.mem_of_find? hfind
    obtain ⟨t, symbols, hspells, hderives, hvalue⟩ := Contribution.exists_tree (hstands _ hmem)
    refine ⟨t, ⟨symbols, ?_, hderives⟩, fun depth hdepth => ?_⟩
    · rw [htext, hfind]
      exact hspells
    · rw [environment, hfind]
      exact hvalue depth hdepth

/-- Trees for all names at once. -/
theorem exists_trees {tokens : OrderedMap Contribution}
    (hnames : ∀ e ∈ tokens, IsIdentifier e.1) (hstands : ∀ e ∈ tokens, e.2.Stands) :
    ∃ trees : String → Tree, ∀ id, IsIdentifier id → IsTreeOf tokens id (trees id) := by
  have htree : ∀ id, ∃ t, IsIdentifier id → IsTreeOf tokens id t := by
    intro id
    by_cases hid : IsIdentifier id
    · obtain ⟨t, ht⟩ := exists_isTreeOf hnames hstands hid
      exact ⟨t, fun _ => ht⟩
    · exact ⟨.literal default, fun h => absurd h hid⟩
  choose trees htrees using htree
  exact ⟨trees, htrees⟩

/-- Arithmetic fails in two ways. -/
theorem faults_of_mapError {x : Except ArithmeticFault Decimal} {e : EvaluationFault}
    (h : x.mapError .ofArithmetic = .error e) : e = .divisionByZero ∨ e = .overflow := by
  cases x with
  | ok d => cases h
  | error fault =>
    cases h
    cases fault with
    | divisionByZero => exact Or.inl rfl
    | overflow => exact Or.inr rfl

/-- The value of a text with its tokens replaced is the value of the expression it was written for,
with every name standing for the value of its own contribution; it fails in the ways of arithmetic
only. -/
theorem evaluateText_substitute {t : Template} {text : List Char}
    {tokens : OrderedMap Contribution} {depth : Nat} (hwritten : t.WrittenAs text)
    (hnames : ∀ e ∈ tokens, IsIdentifier e.1) (hstands : ∀ e ∈ tokens, e.2.Stands)
    (hdepth : textNesting (substitute text (replacements tokens)).text ≤ depth) :
    evaluateText (substitute text (replacements tokens)).text depth
        = t.evaluate (environment tokens depth)
      ∧ ∀ e, t.evaluate (environment tokens depth) = .error e →
        e = .divisionByZero ∨ e = .overflow := by
  obtain ⟨trees, htrees⟩ := exists_trees hnames hstands
  -- the text that is left spells the filled-in expression, so their values and nestings agree
  obtain ⟨symbols, hspells, hderives⟩ := hwritten.substituted (names_replacements hnames)
    fun id hid => (htrees id hid).derives
  rw [textNesting_of_spells hspells hderives] at hdepth
  obtain ⟨_, _, _, _, hcs, _, _⟩ := hwritten
  have hvalue := hcs.evaluate_fill (fun id hid => (htrees id hid).value depth) hdepth
  refine ⟨?_, fun e he => ?_⟩
  · rw [evaluateText_of_spells hspells hderives hdepth, hvalue]
  · rw [hvalue] at he
    exact faults_of_mapError he

/-- A sum that stands for `a` is divided as a whole, and a negative number that stands for `b` keeps
its sign. -/
theorem evaluateText_substitute_quotient :
    let t := Template.binary .div (.name "a")
      (.group (.binary .sub (.name "b") (.literal ⟨false, 25, -1⟩)))
    let tokens := [("a", Contribution.text "9 + x"), ("b", .number (.whole (-2)))]
    evaluateText (substitute "a / (b - 2.5)".toList (replacements tokens)).text 3
        = t.evaluate (environment tokens 3)
      ∧ t.evaluate (environment tokens 3) = .ok ⟨true, 2, 0⟩ := by
  intro t tokens
  have hone : IsBlanks [' '] := by decide
  have hliteral : Written .factor (.literal ⟨false, 25, -1⟩) "2.5".toList :=
    @Written.pointed ['2'] ['5'] (by decide) (by decide) (by decide)
  have hname : ∀ id ∈ ["a", "b"], IsIdentifier id := by decide
  have hdifference : Written .sum (.binary .sub (.name "b") (.literal ⟨false, 25, -1⟩))
      "b - 2.5".toList :=
    .sum (Or.inr rfl) (.ofProduct (.ofFactor (.name (hname "b" (by decide))))) hone hone
      (.ofFactor hliteral)
  have hquotient : Written .sum t "a / (b - 2.5)".toList :=
    .ofProduct (.product (Or.inr rfl) (.ofFactor (.name (hname "a" (by decide)))) hone hone
      (@Written.group _ [] _ [] (by decide) hdifference (by decide)))
  have hwritten : t.WrittenAs "a / (b - 2.5)".toList :=
    ⟨[], _, [], by decide, hquotient, by decide, rfl⟩
  have hnames : ∀ e ∈ tokens, IsIdentifier e.1 := by
    intro e he
    exact hname e.1 (by revert e; decide)
  have hstands : ∀ e ∈ tokens, e.2.Stands := by
    intro e he
    simp only [tokens, List.mem_cons, List.not_mem_nil, or_false] at he
    rcases he with rfl | rfl
    · exact Or.inr ⟨0, _, rfl⟩
    · rfl
  exact ⟨(evaluateText_substitute hwritten hnames hstands (by decide)).1, by decide⟩

end Tariff.Expression

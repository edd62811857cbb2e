import Tariff.Proofs.HiddenAnswers
import Tariff.Proofs.Quote

/-!
# Hidden answers in quotes

A formula by itself never reads the answer to a hidden variable. In a quote such an answer may still
count: answers are shared before anything is hidden, so that the answer to a hidden variable goes to
other formulas under its key. Nor is a variable hidden for good if its formula has another one of
the same id, or if another formula goes by the same id and shows it
(`QuoteRequest.quote_of_hidden_answers`).

These are all the ways. If the answer reaches no variable that is shown, it may be replaced or taken
back, and every line keeps its price (`QuoteRequest.quote_withAnswer`).
-/

namespace Tariff

/-! ## Offers -/

/-- An own answer of a variable with a key. -/
structure Offer where
  /-- The key that the answer is shared under. -/
  key : ConnectionKey
  /-- The answer. -/
  answer : Value
  /-- The id of the formula. -/
  formulaId : String
  /-- The id of the variable. -/
  variableId : String

namespace Offer

variable {offers : List Offer} {formulaId id : String} {answer? : Option Value}
  {key : ConnectionKey}

/-- The offer that is made if a certain answer is replaced or taken back. -/
def amend (formulaId id : String) (answer? : Option Value) (o : Offer) : Option Offer :=
  if o.formulaId = formulaId ∧ o.variableId = id then answer?.map fun answer => { o with answer }
  else some o

/-- Whether an offer is one under a key. -/
def isUnder (key : ConnectionKey) (o : Offer) : Bool :=
  o.key.same key

/-- The first offer under a key. -/
def first? (offers : List Offer) (key : ConnectionKey) : Option Offer :=
  offers.find? (isUnder key)

/-- If the first offer under a key is another one, it is still the first. -/
theorem first?_amend (h : ∀ o, first? offers key = some o →
      ¬ (o.formulaId = formulaId ∧ o.variableId = id)) :
    first? (offers.filterMap (amend formulaId id answer?)) key = first? offers key := by
  unfold first? at h ⊢
  induction offers with
  | nil => rfl
  | cons o offers ih =>
    rw [List.filterMap_cons]
    cases hunder : o.isUnder key with
    | true =>
      rw [List.find?_cons_of_pos hunder] at h ⊢
      rw [amend, if_neg (h o rfl)]
      exact List.find?_cons_of_pos hunder
    | false =>
      have hother : ¬ o.isUnder key = true := by simp [hunder]
      rw [List.find?_cons_of_neg hother] at h ⊢
      rw [← ih h, amend]
      -- whatever becomes of an offer under another key, it is passed over
      by_cases hown : o.formulaId = formulaId ∧ o.variableId = id
      · rw [if_pos hown]
        cases answer? with
        | none => rfl
        | some answer => exact List.find?_cons_of_neg hother
      · rw [if_neg hown]
        exact List.find?_cons_of_neg hother

end Offer

namespace QuoteRequest

variable {q : QuoteRequest} {depth : Nat} {f : Formula} {v : Variable} {formulaId id : String}
  {answer? : Option Value} {key : ConnectionKey}

/-- All own answers of variables with a key. -/
def offers (q : QuoteRequest) : List Offer :=
  q.formulas.flatMap fun f => f.questions.filterMap fun v =>
    (v.offer? (q.answersTo f)).map fun e => ⟨e.1, e.2, f.id, v.id⟩

theorem ownAnswers_eq_map : q.ownAnswers = q.offers.map fun o => (o.key, o.answer) := by
  rw [ownAnswers, offers, List.map_flatMap]
  refine List.flatMap_congr fun f _ => ?_
  rw [List.map_filterMap]
  refine List.filterMap_congr fun v _ => ?_
  cases v.offer? (q.answersTo f) <;> rfl

theorem sharedAnswer?_eq : q.sharedAnswer? key
    = (q.given.find? key).or ((Offer.first? q.offers key).map (·.answer)) := by
  rw [sharedAnswer?, SharedAnswers.find?_append, ownAnswers_eq_map]
  congr 1
  rw [SharedAnswers.find?, List.find?_map, Option.map_map]
  rfl

/-! ## A changed answer -/

/-- The answers to a formula, with another one to a variable of a certain formula or without it. -/
def amended (formulaId id : String) (answer? : Option Value) (key : String) (answers : Answers) :
    Answers :=
  if key = formulaId then answers.amend id answer? else answers

/-- The request with another answer to a variable that has one, or without it. -/
def withAnswer (q : QuoteRequest) (formulaId id : String) (answer? : Option Value) : QuoteRequest :=
  { q with answers := q.answers.map fun e => (e.1, amended formulaId id answer? e.1 e.2) }

theorem answersTo_withAnswer : (q.withAnswer formulaId id answer?).answersTo f
    = amended formulaId id answer? f.id (q.answersTo f) := by
  unfold answersTo withAnswer
  rw [OrderedMap.find?_map_entries]
  cases q.answers.find? f.id with
  | some answers => rfl
  | none =>
    show [] = amended formulaId id answer? f.id []
    unfold amended
    split <;> rfl

/-- Answers to other formulas and other variables stay. -/
theorem find?_answersTo_withAnswer (h : ¬ (f.id = formulaId ∧ v.id = id)) :
    ((q.withAnswer formulaId id answer?).answersTo f).find? v.id
      = (q.answersTo f).find? v.id := by
  rw [answersTo_withAnswer, amended]
  split
  · next hf => exact OrderedMap.find?_amend_of_ne fun hv => h ⟨hf, hv⟩
  · rfl

theorem offers_withAnswer : (q.withAnswer formulaId id answer?).offers
    = q.offers.filterMap (Offer.amend formulaId id answer?) := by
  rw [offers, offers, List.filterMap_flatMap]
  refine List.flatMap_congr fun f _ => ?_
  rw [List.filterMap_filterMap]
  refine List.filterMap_congr fun v _ => ?_
  -- of the offer that the answer makes, the key stays, and with it the place among the others
  by_cases h : f.id = formulaId ∧ v.id = id
  · rw [answersTo_withAnswer, amended, if_pos h.1, Variable.offer?, Variable.offer?, h.2,
      OrderedMap.find?_amend_self]
    cases (q.answersTo f).find? id with
    | none => rfl
    | some answer =>
      cases v.sharedKey? with
      | none => cases answer? <;> rfl
      | some key =>
        show _ = Offer.amend formulaId id answer? ⟨key, answer, f.id, id⟩
        rw [Offer.amend, if_pos ⟨h.1, rfl⟩]
        cases answer? <;> rfl
  · rw [Variable.offer?, find?_answersTo_withAnswer h]
    show (v.offer? (q.answersTo f)).map _ = _
    cases v.offer? (q.answersTo f) with
    | none => rfl
    | some e => exact (if_neg h).symm

/-- What a variable is given is the answer to a certain variable of a certain formula. -/
def Supplies (q : QuoteRequest) (formulaId id : String) (v : Variable) : Prop :=
  ∃ key ∈ v.sharedKey?, q.given.find? key = none
    ∧ ∃ o ∈ Offer.first? q.offers key, o.formulaId = formulaId ∧ o.variableId = id

instance (q : QuoteRequest) (formulaId id : String) (v : Variable) :
    Decidable (q.Supplies formulaId id v) :=
  inferInstanceAs (Decidable (∃ key ∈ v.sharedKey?, q.given.find? key = none
    ∧ ∃ o ∈ Offer.first? q.offers key, o.formulaId = formulaId ∧ o.variableId = id))

theorem bind_sharedAnswer?_withAnswer (h : ¬ q.Supplies formulaId id v) :
    v.sharedKey?.bind (q.withAnswer formulaId id answer?).sharedAnswer?
      = v.sharedKey?.bind q.sharedAnswer? := by
  cases hkey : v.sharedKey? with
  | none => rfl
  | some key =>
    show (q.withAnswer formulaId id answer?).sharedAnswer? key = q.sharedAnswer? key
    rw [sharedAnswer?_eq, sharedAnswer?_eq]
    show (q.given.find? key).or _ = _
    cases hgiven : q.given.find? key with
    | some answer => rfl
    | none =>
      rw [offers_withAnswer, Offer.first?_amend]
      exact fun o ho hsource => h ⟨key, hkey, hgiven, o, ho, hsource⟩

/-! ## The lines of the changed request -/

/-- Whether a formula of a quote shows a variable. -/
def Shows (q : QuoteRequest) (f : Formula) (id : String) : Prop :=
  (resolve f.questions (q.inputsTo f)).visibility.find? id = some true

instance (q : QuoteRequest) (f : Formula) (id : String) : Decidable (q.Shows f id) :=
  inferInstanceAs (Decidable (_ = _))

/-- Nobody is shown who could read a certain answer: neither the variable that it is for, nor one
that it is given to. -/
structure Unseen (q : QuoteRequest) (formulaId id : String) : Prop where
  hidden : ∀ f ∈ q.formulas, f.id = formulaId → ¬ q.Shows f id
  unsupplied : ∀ f ∈ q.formulas, ∀ v ∈ f.questions, q.Shows f v.id →
    (q.answersTo f).contains v.id = false → ¬ q.Supplies formulaId id v

theorem calculate_withAnswer (hids : (f.questions.map (·.id)).Nodup) (hf : f ∈ q.formulas)
    (h : q.Unseen formulaId id) :
    f.calculate ((q.withAnswer formulaId id answer?).inputsTo f) depth
      = f.calculate (q.inputsTo f) depth := by
  have hagree : AgreeWhereShown f.questions (q.inputsTo f)
      ((q.withAnswer formulaId id answer?).inputsTo f) := by
    intro v hv hshown
    have hother : ¬ (f.id = formulaId ∧ v.id = id) := by
      rintro ⟨hown, rfl⟩
      exact h.hidden f hf hown hshown
    rw [find?_inputsTo hids hv, find?_inputsTo hids hv, find?_answersTo_withAnswer hother]
    -- a variable that is shown has another answer, or is given one from elsewhere
    cases hanswer : (q.answersTo f).find? v.id with
    | some answer => rfl
    | none =>
      have hopen := OrderedMap.contains_of_find?_eq_none hanswer
      rw [bind_sharedAnswer?_withAnswer (h.unsupplied f hf v hv hshown hopen)]
  exact (Formula.calculate_eq_of_agree hids hagree depth).symm

/-- Let no formula of a request have two variables of one id, and let an answer reach no variable
that is shown: its own one is hidden in all formulas of that id, and through its key it only goes to
hidden ones, if to any. Then it may be replaced or taken back: there still is a quote, with the same
total, the same price in every line and the same warnings. -/
theorem quote_withAnswer (hids : ∀ f ∈ q.formulas, (f.questions.map (·.id)).Nodup)
    (h : q.Unseen formulaId id) {quote : Quote} (hquote : q.quote depth = .ok quote)
    (answer? : Option Value) :
    ∃ quote', (q.withAnswer formulaId id answer?).quote depth = .ok quote'
      ∧ quote'.total = quote.total
      ∧ quote'.lines.map (·.price) = quote.lines.map (·.price)
      ∧ quote'.warnings = quote.warnings := by
  obtain ⟨hkeys, hends, rfl⟩ := (quote_eq_ok_iff_of_nodup hids).mp hquote
  have hsame : ∀ f ∈ q.formulas, f.calculate ((q.withAnswer formulaId id answer?).inputsTo f) depth
      = f.calculate (q.inputsTo f) depth := fun f hf => calculate_withAnswer (hids f hf) hf h
  have hends' : ∀ f ∈ q.formulas,
      f.calculate ((q.withAnswer formulaId id answer?).inputsTo f) depth ≠ .error .longPrice := by
    intro f hf
    rw [hsame f hf]
    exact hends f hf
  have hprices : ((q.withAnswer formulaId id answer?).quoteOfOutcomes depth).lines.map (·.price)
      = (q.quoteOfOutcomes depth).lines.map (·.price) := by
    rw [prices_quoteOfOutcomes, prices_quoteOfOutcomes]
    exact List.filterMap_congr fun f hf => by rw [hsame f hf]
  have hids' : ∀ f ∈ (q.withAnswer formulaId id answer?).formulas,
      (f.questions.map (·.id)).Nodup := hids
  have hquote' := (quote_eq_ok_iff_of_nodup hids').mpr ⟨hkeys, hends', rfl⟩
  refine ⟨_, hquote', ?_, hprices, ?_⟩
  · rw [total_quoteOfOutcomes, total_quoteOfOutcomes, hprices]
  · rw [warnings_quoteOfOutcomes, warnings_quoteOfOutcomes]
    refine congrArg List.eraseDups (List.flatMap_congr fun f hf => ?_)
    rw [hsame f hf]

/-- If the area of the house is given, nobody needs the painter for it. So as long as he does not
paint, it does not matter what he has been told. -/
theorem quote_withAnswer_surveyed :
    ∃ quote quote', Sample.surveyed.quote defaultDepth = .ok quote
      ∧ (Sample.surveyed.withAnswer "painting" "sqft" (some (.int 7))).quote defaultDepth
        = .ok quote'
      ∧ quote'.total = quote.total ∧ quote.total = 9 := by
  have hids : ∀ f ∈ Sample.surveyed.formulas, (f.questions.map (·.id)).Nodup := by decide
  have hunseen : Sample.surveyed.Unseen "painting" "sqft" := ⟨by decide, by decide⟩
  have hquote : Sample.surveyed.quote defaultDepth
      = .ok (Sample.surveyed.quoteOfOutcomes defaultDepth) :=
    (quote_eq_ok_iff_of_nodup hids).mpr ⟨by decide, by decide, rfl⟩
  obtain ⟨quote', hquote', htotal, -⟩ := quote_withAnswer hids hunseen hquote (some (.int 7))
  exact ⟨_, quote', hquote, hquote', htotal, by decide⟩

/-- Three hidden answers that count: one that goes to the gutters, one that is asked for twice, and
one that a second formula of the same id shows. -/
theorem quote_of_hidden_answers :
    (∃ quote quote', Sample.unpainted.quote defaultDepth = .ok quote
      ∧ (Sample.unpainted.withAnswer "painting" "sqft" none).quote defaultDepth = .ok quote'
      ∧ quote.lines.map (·.resolution.visibility.find? "sqft") = [some false, none]
      ∧ quote.total = 10 ∧ quote'.total = 0)
    ∧ (∃ quote quote', Sample.askedTwice.quote defaultDepth = .ok quote
      ∧ (Sample.askedTwice.withAnswer "painting" "coats" none).quote defaultDepth = .ok quote'
      ∧ quote.lines.map (·.resolution.visibility.find? "coats") = [some false]
      ∧ quote.total = 100 ∧ quote'.total = 0)
    ∧ ∃ quote quote', Sample.paintedTwice.quote defaultDepth = .ok quote
      ∧ (Sample.paintedTwice.withAnswer "painting" "sqft" none).quote defaultDepth = .ok quote'
      ∧ quote.lines.map (·.resolution.visibility.find? "sqft") = [some false, some true]
      ∧ quote.total = 200 ∧ quote'.total = 0 := by
  refine ⟨⟨_, _, rfl, rfl, ?_, ?_, ?_⟩, ⟨_, _, rfl, rfl, ?_, ?_, ?_⟩, _, _, rfl, rfl, ?_, ?_, ?_⟩
  all_goals decide

end QuoteRequest

end Tariff

import Mathlib.Algebra.BigOperators.Group.List.Basic
import Mathlib.Algebra.Ring.Int.Defs
import Tariff.Proofs.Pricing
import Tariff.Proofs.Sample
import Tariff.Proofs.Sharing

/-!
# Quotes as sums of lines

A quote calculates its formulas one after the other and puts together what comes of them
(`QuoteRequest.quote_eq_ok_iff`). Nothing of one line is read by the next: a line is its formula
calculated with the answers that the sharing of answers comes to (`QuoteRequest.line_eq_ok_iff`).

So a quote has exactly the lines that its formulas have by themselves, and their sum for a total
(`QuoteRequest.quote_of_lines`). A formula whose evaluation fails leaves nothing but a warning.
-/

namespace Tariff

/-! ## What becomes of a calculation -/

/-- The report of the variables that were given an answer by others, if there are any. -/
def connectedTrace (ids : List String) : List TraceStep :=
  if ids.isEmpty then []
  else [⟨"Connected", "Answers shared from other services", ", ".intercalate ids⟩]

/-- A result as the line of a quote: it reports which of its answers come from others. -/
def PriceResult.withConnected (r : PriceResult) (ids : List String) : PriceResult :=
  { r with trace := r.trace ++ connectedTrace ids }

/-- What a quote tells of a calculation: the warnings of the result, or the fault. -/
def Formula.told (f : Formula) : Except PricingFault PriceResult → List String
  | .ok r => r.warnings.map fun w => f.id ++ ": " ++ w
  | .error fault => [f.id ++ ": unable to calculate price (" ++ fault.message ++ ")"]

/-- The quote that is put together from what comes of its formulas. -/
def Quote.of (outcomes : List (Option PriceResult × List String)) : Quote where
  total := ((outcomes.filterMap (·.1)).map (·.price)).sum
  lines := outcomes.filterMap (·.1)
  warnings := (outcomes.flatMap (·.2)).eraseDups

theorem foldl_total (lines : List PriceResult) :
    lines.foldl (fun total line => total + line.price) 0 = (lines.map (·.price)).sum := by
  rw [List.sum_eq_foldl, List.foldl_map]

namespace QuoteRequest

variable {q : QuoteRequest} {depth : Nat} {shared : SharedAnswers} {f : Formula}

/-! ## Any request -/

/-- A quote shares the answers, calculates its formulas and puts the outcomes together. -/
theorem quote_eq_ok_iff {quote : Quote} :
    q.quote depth = .ok quote
      ↔ ∃ shared outcomes, q.sharedAnswers = .ok shared
        ∧ q.formulas.mapM (q.line shared depth) = .ok outcomes ∧ Quote.of outcomes = quote := by
  have hquote : q.quote depth = q.sharedAnswers >>= fun shared =>
      q.formulas.mapM (q.line shared depth) >>= fun outcomes => .ok (Quote.of outcomes) := by
    unfold QuoteRequest.quote Quote.ofOutcomes Quote.of
    simp only [foldl_total]
    rfl
  rw [hquote]
  constructor
  · intro h
    obtain ⟨shared, hshared, h⟩ := bind_eq_ok_iff.mp h
    obtain ⟨outcomes, houtcomes, h⟩ := bind_eq_ok_iff.mp h
    exact ⟨shared, outcomes, hshared, houtcomes, Except.ok.inj h⟩
  · rintro ⟨shared, outcomes, hshared, houtcomes, rfl⟩
    exact bind_eq_ok_iff.mpr ⟨shared, hshared, bind_eq_ok_iff.mpr ⟨outcomes, houtcomes, rfl⟩⟩

/-- A quote is the same on every stack that it is found on. -/
theorem quote_of_quoteWithin {levels : Nat} {quote : Quote}
    (h : q.quoteWithin depth levels = .ok quote) :
    q.quote depth = .ok quote := by
  have hline : ∀ shared f o, q.lineWithin shared depth (levels - 1) f = .ok o →
      q.line shared depth f = .ok o := by
    intro shared f o ho
    obtain ⟨own, -, ho⟩ := bind_eq_ok_iff.mp ho
    dsimp only at ho
    split at ho
    · cases ho
    · cases ho
    · exact mapError_eq_ok_iff.mp ho
  obtain ⟨shared, hshared, h⟩ := bind_eq_ok_iff.mp h
  obtain ⟨outcomes, houtcomes, h⟩ := bind_eq_ok_iff.mp h
  cases h
  refine bind_eq_ok_iff.mpr ⟨shared, mapError_eq_ok_iff.mp hshared,
    bind_eq_ok_iff.mpr ⟨outcomes, mapM_eq_ok_iff.mpr ?_, rfl⟩⟩
  exact (mapM_eq_ok_iff.mp houtcomes).imp fun f o => hline shared f o

/-- A line is a calculation with the answers that the second run comes to. It fails only if that run
does, or if a number is too long. -/
theorem line_eq_ok_iff {o : Option PriceResult × List String} :
    q.line shared depth f = .ok o
      ↔ ∃ answers ids, f.questions.foldlM (connect shared) (q.answersTo f, []) = .ok (answers, ids)
        ∧ f.calculate answers depth ≠ .error .longPrice
        ∧ ((f.calculate answers depth).toOption.map (·.withConnected ids),
          f.told (f.calculate answers depth)) = o := by
  unfold line
  rw [bind_eq_ok_iff, Prod.exists]
  refine exists₂_congr fun answers ids => and_congr_right fun _ => ?_
  dsimp only
  cases f.calculate answers depth with
  | error fault =>
    cases fault with
    | longPrice => exact iff_of_false nofun fun h => h.1 rfl
    | evaluation fault =>
      show Except.ok (none, _) = .ok o ↔ _ ∧ (none, _) = o
      simp [Formula.told, PricingFault.message]
  | ok r =>
    have htrace : (if ids.isEmpty then r.trace else r.trace ++
          [⟨"Connected", "Answers shared from other services", ", ".intercalate ids⟩])
        = r.trace ++ connectedTrace ids := by
      unfold connectedTrace
      split
      · rw [List.append_nil]
      · rfl
    simp only [htrace]
    show Except.ok (some _, _) = .ok o ↔ _ ∧ (some _, _) = o
    simp [Formula.told, PriceResult.withConnected]

/-! ## Requests in which no id repeats -/

/-- What the variables of a formula are given by others: to each one that has a key and no answer of
its own, what is shared under the key. -/
def receivedBy (q : QuoteRequest) (f : Formula) : Answers :=
  received q.sharedAnswer? (q.answersTo f) f.questions

/-- The answers that a formula is priced with: its own, and what is given by others. -/
def inputsTo (q : QuoteRequest) (f : Formula) : Answers :=
  q.answersTo f ++ q.receivedBy f

/-- A variable is priced with its own answer, or else with what is shared under its key. -/
theorem find?_inputsTo (hids : (f.questions.map (·.id)).Nodup) {v : Variable}
    (hv : v ∈ f.questions) :
    (q.inputsTo f).find? v.id
      = ((q.answersTo f).find? v.id).or (v.sharedKey?.bind q.sharedAnswer?) := by
  rw [inputsTo, OrderedMap.find?_append]
  cases hanswer : (q.answersTo f).find? v.id with
  | some answer => rfl
  | none =>
    have hopen := OrderedMap.contains_of_find?_eq_none hanswer
    show (q.receivedBy f).find? v.id = v.sharedKey?.bind q.sharedAnswer?
    rw [receivedBy, find?_received hids hv, received?, hopen]
    rfl

/-- What becomes of one formula of a quote. -/
def outcomeOf (q : QuoteRequest) (depth : Nat) (f : Formula) : Option PriceResult × List String :=
  ((f.calculate (q.inputsTo f) depth).toOption.map (·.withConnected (q.receivedBy f).keys),
    f.told (f.calculate (q.inputsTo f) depth))

/-- The quote that the formulas of a request make up. -/
def quoteOfOutcomes (q : QuoteRequest) (depth : Nat) : Quote :=
  Quote.of (q.formulas.map (q.outcomeOf depth))

theorem lines_quoteOfOutcomes : (q.quoteOfOutcomes depth).lines
    = q.formulas.filterMap fun f =>
        (f.calculate (q.inputsTo f) depth).toOption.map (·.withConnected
          (q.receivedBy f).keys) := by
  show (q.formulas.map (q.outcomeOf depth)).filterMap (·.1) = _
  rw [List.filterMap_map]
  rfl

theorem total_quoteOfOutcomes :
    (q.quoteOfOutcomes depth).total = ((q.quoteOfOutcomes depth).lines.map (·.price)).sum := rfl

/-- What a formula is given by others shows in the report of its line, and not in the price. -/
theorem prices_quoteOfOutcomes : (q.quoteOfOutcomes depth).lines.map (·.price)
    = q.formulas.filterMap fun f =>
        (f.calculate (q.inputsTo f) depth).toOption.map (·.price) := by
  rw [lines_quoteOfOutcomes, List.map_filterMap]
  refine List.filterMap_congr fun f _ => ?_
  rw [Option.map_map]
  rfl

theorem warnings_quoteOfOutcomes : (q.quoteOfOutcomes depth).warnings
    = (q.formulas.flatMap fun f => f.told (f.calculate (q.inputsTo f) depth)).eraseDups := by
  show ((q.formulas.map (q.outcomeOf depth)).flatMap (·.2)).eraseDups = _
  rw [List.flatMap_map]
  rfl

theorem line_eq_ok_iff_of_nodup (hids : (f.questions.map (·.id)).Nodup)
    (hshared : q.sharedAnswers = .ok shared) (o : Option PriceResult × List String) :
    q.line shared depth f = .ok o
      ↔ ((∀ v ∈ f.questions, (q.answersTo f).contains v.id = false → v.HasFitKey)
          ∧ f.calculate (q.inputsTo f) depth ≠ .error .longPrice)
        ∧ q.outcomeOf depth f = o := by
  have hfind : shared.find? = q.sharedAnswer? := funext (find?_sharedAnswers hshared)
  rw [line_eq_ok_iff]
  simp only [foldlM_connect_eq_ok_iff hids, hfind, List.nil_append]
  constructor
  · rintro ⟨answers, ids, ⟨hfits, hrun⟩, hends, rfl⟩
    obtain ⟨rfl, rfl⟩ := Prod.mk.inj hrun
    exact ⟨⟨hfits, hends⟩, rfl⟩
  · rintro ⟨⟨hfits, hends⟩, rfl⟩
    exact ⟨_, _, ⟨hfits, rfl⟩, hends, rfl⟩

/-- Between them, the two runs look at the key of every variable. -/
theorem hasFitKey_iff : (∀ f ∈ q.formulas, ∀ v ∈ f.questions, v.HasFitKey)
    ↔ q.OffersFit
      ∧ ∀ f ∈ q.formulas, ∀ v ∈ f.questions,
          (q.answersTo f).contains v.id = false → v.HasFitKey := by
  constructor
  · intro h
    exact ⟨fun f hf v hv _ => h f hf v hv, fun f hf v hv _ => h f hf v hv⟩
  · rintro ⟨hoffers, hopen⟩ f hf v hv
    cases hanswer : (q.answersTo f).find? v.id with
    | some answer => exact hoffers f hf v hv (by rw [hanswer]; rfl)
    | none => exact hopen f hf v hv (OrderedMap.contains_of_find?_eq_none hanswer)

/-- **A quote is made of its lines.** It is given exactly if all keys are fit and no line has a
number that is too long. -/
theorem quote_eq_ok_iff_of_nodup (hids : ∀ f ∈ q.formulas, (f.questions.map (·.id)).Nodup)
    {quote : Quote} :
    q.quote depth = .ok quote
      ↔ (∀ f ∈ q.formulas, ∀ v ∈ f.questions, v.HasFitKey)
        ∧ (∀ f ∈ q.formulas, f.calculate (q.inputsTo f) depth ≠ .error .longPrice)
        ∧ q.quoteOfOutcomes depth = quote := by
  rw [quote_eq_ok_iff, hasFitKey_iff]
  constructor
  · rintro ⟨shared, outcomes, hshared, houtcomes, rfl⟩
    obtain ⟨hlines, rfl⟩ := (mapM_eq_ok_iff_map fun f hf =>
      line_eq_ok_iff_of_nodup (hids f hf) hshared).mp houtcomes
    have hoffers : q.OffersFit := (sharedAnswers_eq_ok_iff.mp hshared).1
    exact ⟨⟨hoffers, fun f hf => (hlines f hf).1⟩, fun f hf => (hlines f hf).2, rfl⟩
  · rintro ⟨⟨hoffers, hopen⟩, hends, rfl⟩
    have hshared := sharedAnswers_eq_ok_iff.mpr ⟨hoffers, rfl⟩
    refine ⟨_, _, hshared, ?_, rfl⟩
    exact (mapM_eq_ok_iff_map fun f hf => line_eq_ok_iff_of_nodup (hids f hf) hshared).mpr
      ⟨fun f hf => ⟨hopen f hf, hends f hf⟩, rfl⟩

/-- A request in which no formula has two variables of one id, every key is fit and no number is too
long has a quote. Its lines are the formulas that have a price for the answers they are given, in
their order, each as it is calculated by itself and with a report of what it was given. Their prices
add up to the total, and of a formula without a price nothing is left but the warning that says
so. -/
theorem quote_of_lines (hids : ∀ f ∈ q.formulas, (f.questions.map (·.id)).Nodup)
    (hkeys : ∀ f ∈ q.formulas, ∀ v ∈ f.questions, v.HasFitKey)
    (depth : Nat)
    (hends : ∀ f ∈ q.formulas, f.calculate (q.inputsTo f) depth ≠ .error .longPrice) :
    ∃ quote, q.quote depth = .ok quote
      ∧ quote.lines = q.formulas.filterMap (fun f =>
          (f.calculate (q.inputsTo f) depth).toOption.map (·.withConnected (q.receivedBy f).keys))
      ∧ quote.total = (quote.lines.map (·.price)).sum
      ∧ quote.warnings
        = (q.formulas.flatMap fun f => f.told (f.calculate (q.inputsTo f) depth)).eraseDups := by
  have hquote := (quote_eq_ok_iff_of_nodup hids).mpr ⟨hkeys, hends, rfl⟩
  exact ⟨_, hquote, lines_quoteOfOutcomes, total_quoteOfOutcomes, warnings_quoteOfOutcomes⟩

/-- A roof has no price, and the gutters take the area from the painter. -/
theorem quote_of_lines_house :
    ∃ quote, Sample.house.quote defaultDepth = .ok quote
      ∧ quote.lines.map (·.price) = [200, 14] ∧ quote.total = 214
      ∧ quote.warnings = ["roof: unable to calculate price (Division by zero)"] := by
  have hids : ∀ f ∈ Sample.house.formulas, (f.questions.map (·.id)).Nodup := by decide
  have hkeys : ∀ f ∈ Sample.house.formulas, ∀ v ∈ f.questions, v.HasFitKey := by decide
  obtain ⟨quote, hquote, hlines, htotal, hwarnings⟩ :=
    quote_of_lines hids hkeys defaultDepth (by decide)
  have hprices : quote.lines.map (·.price) = [200, 14] := by
    rw [hlines]
    decide
  refine ⟨quote, hquote, hprices, ?_, ?_⟩
  · rw [htotal, hprices]
    rfl
  · rw [hwarnings]
    decide

end QuoteRequest

end Tariff

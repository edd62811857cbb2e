import Tariff.Proofs.Calculation
import Tariff.Proofs.Catalog
import Tariff.Proofs.Reading
import Tariff.Proofs.Sample
import Tariff.Proofs.Sending
import Tariff.Proofs.Shape
import Tariff.Service.Respond

/-!
# Requests for prices

Three endpoints price formulas: one that is sent along, a stored one, and several stored ones
together. Whatever body they accept, they answer with what the calculation comes to
(`pricing_endpoints_answer`): a result, or the reason why there is none. But a result is an answer
only if it can be sent, and not every result can (`result_beyond_range_fails`).
-/

namespace Tariff.Service

open Definition

/-! ## Responses -/

/-- Whether a response is an answer: a result, or a reason why there is none. -/
def Response.IsAnswer (response : Response) : Prop :=
  response.status ∈ [200, 404, 422]

theorem Response.not_isAnswer_failed : ¬ Response.failed.IsAnswer := by
  simp [IsAnswer, status]

theorem Response.ok_of_sends {v : Value} (h : Sends v) :
    Response.ok v = .answer 200 (publicPart v) :=
  if_pos h

theorem Response.isAnswer_ok_iff {v : Value} : (Response.ok v).IsAnswer ↔ Sends v := by
  by_cases h : Sends v
  · rw [ok_of_sends h]
    exact iff_of_true List.mem_cons_self h
  · rw [show Response.ok v = .failed from if_neg h]
    exact iff_of_false not_isAnswer_failed h

theorem isAnswer_problem (message error : String) : (problem message error).IsAnswer := by
  simp [Response.IsAnswer, problem, Response.refuse, Response.status]

/-- How a service answers, given what came of a calculation: with the result, or with the reason why
there is none. There is no answer to a calculation that failed for the length of a number or came to
a halt, or to one with a result that cannot be sent or that is nested too deep to be copied. -/
structure Settles (levels : Nat) (outcome : Except (Halt PricingFault) PriceResult)
    (response : Response) : Prop where
  result : ∀ r, outcome = .ok r → Sendable r → resultCalls r ≤ levels →
    response = .answer 200 (publicPart (resultValue r))
  fault : ∀ fault, outcome = .error (.fault (.evaluation fault)) →
    response = problem "Unable to calculate price" fault.message
  answered : response.IsAnswer ↔ (∃ fault, outcome = .error (.fault (.evaluation fault)))
    ∨ ∃ r, outcome = .ok r ∧ Sendable r ∧ resultCalls r ≤ levels

/-- How a service answers, given what came of a quote. -/
structure SettlesQuote (levels : Nat) (outcome : Except (Halt QuoteFault) Quote)
    (response : Response) : Prop where
  result : ∀ q, outcome = .ok q → QuoteSendable q → quoteCalls q ≤ levels →
    response = .answer 200 (publicPart (quoteValue q))
  answered : response.IsAnswer ↔ ∃ q, outcome = .ok q ∧ QuoteSendable q ∧ quoteCalls q ≤ levels

/-- What is sent back in any case. -/
def Handled.response : Handled Response → Response
  | .ok response => response
  | .error response => response

theorem settles_priced (s : Service) (f : Formula) (answers : Answers) :
    Settles s.levels (f.calculateWithin answers s.nesting s.levels)
      (Handled.response (s.priced f answers)) := by
  unfold Service.priced
  cases h : f.calculateWithin answers s.nesting s.levels with
  | error halt =>
    rcases halt with (fault | _) | _
    · refine ⟨nofun, fun _ heq => ?_, iff_of_true (isAnswer_problem _ _) (Or.inl ⟨fault, rfl⟩)⟩
      cases heq
      rfl
    · exact ⟨nofun, nofun, iff_of_false Response.not_isAnswer_failed (by simp)⟩
    · exact ⟨nofun, nofun, iff_of_false Response.not_isAnswer_failed (by simp)⟩
  | ok r =>
    obtain ⟨hprice, hrounded⟩ := writable_of_calculate (Formula.calculate_of_calculateWithin h)
    have hsends := sends_resultValue_iff hprice hrounded
    dsimp only
    split
    · next hcopied =>
      refine ⟨fun _ heq hsendable _ => ?_, nofun, ?_⟩
      · cases heq
        exact Response.ok_of_sends (hsends.mpr hsendable)
      · show (Response.ok (resultValue r)).IsAnswer ↔ _
        simp [Response.isAnswer_ok_iff, hsends, hcopied]
    · next hdeep =>
      refine ⟨fun _ heq _ hcopied => ?_, nofun, ?_⟩
      · cases heq
        exact absurd hcopied hdeep
      · exact iff_of_false Response.not_isAnswer_failed (by simp [hdeep])

theorem settles_quoted (q : QuoteRequest) (depth levels : Nat) :
    SettlesQuote levels (q.quoteWithin depth levels) (Handled.response
      (orFailed (q.quoteWithin depth levels) >>= fun quote =>
        if quoteCalls quote ≤ levels then .ok (.ok (quoteValue quote)) else .error .failed)) := by
  cases h : q.quoteWithin depth levels with
  | error halt => exact ⟨nofun, iff_of_false Response.not_isAnswer_failed (by simp)⟩
  | ok quote =>
    have hsends := sends_quoteValue_iff (writable_of_quote (QuoteRequest.quote_of_quoteWithin h))
    show SettlesQuote levels (.ok quote) (Handled.response
      (if quoteCalls quote ≤ levels then .ok (.ok (quoteValue quote)) else .error .failed))
    split
    · next hcopied =>
      refine ⟨fun _ heq hsendable _ => ?_, ?_⟩
      · cases heq
        exact Response.ok_of_sends (hsends.mpr hsendable)
      · show (Response.ok (quoteValue quote)).IsAnswer ↔ _
        simp [Response.isAnswer_ok_iff, hsends, hcopied]
    · next hdeep =>
      refine ⟨fun _ heq _ hcopied => ?_, ?_⟩
      · cases heq
        exact absurd hcopied hdeep
      · exact iff_of_false Response.not_isAnswer_failed (by simp [hdeep])

/-! ## Requests for prices -/

/-- Whether something asks for a price. -/
def Endpoint.Prices : Endpoint → Prop
  | .inlinePrice | .price _ | .quote => True
  | _ => False

/-- Whether something is asked for with a body. -/
def Endpoint.IsPosted : Endpoint → Prop
  | .identifiers | .inlinePrice | .inlineReport | .price _ | .quote => True
  | _ => False

theorem Endpoint.Prices.isPosted {e : Endpoint} (h : e.Prices) : e.IsPosted := by
  cases e <;> trivial

theorem eq_post_of_mem_endpointsAt {parts : List String} {method : String} {e : Endpoint}
    (h : (method, e) ∈ endpointsAt parts) (he : e.IsPosted) : method = "POST" := by
  unfold endpointsAt at h
  split at h <;> grind [Endpoint.IsPosted]

theorem exists_endpointsAt (address : String) :
    ∃ parts, endpointsNear address = endpointsAt parts := by
  unfold endpointsNear
  dsimp only
  split
  · exact ⟨_, rfl⟩
  · exact ⟨_, rfl⟩

/-- Whatever is posted gets the response with its body. -/
theorem respond_of_posted {s : Service} {r : Request} {e : Endpoint}
    (hroute : route r.method r.address = .ok e) (he : e.IsPosted) :
    s.respond r = Handled.response (s.handle r.body? e) := by
  -- only a response to HEAD goes without its body
  have hpost : Text.toUpper r.method = "POST" := by
    obtain ⟨parts, hparts⟩ := exists_endpointsAt r.address
    unfold route at hroute
    dsimp only at hroute
    split at hroute
    · next hfound =>
      cases hroute
      have hmem := OrderedMap.mem_of_find? hfound
      rw [hparts] at hmem
      exact eq_post_of_mem_endpointsAt hmem he
    · cases hroute
    · cases hroute
  unfold Service.respond Service.reply
  rw [hroute, hpost]
  rfl

/-- Whatever asks for a price gets the response with its body. -/
theorem respond_of_route {s : Service} {r : Request} {e : Endpoint}
    (hroute : route r.method r.address = .ok e) (he : e.Prices) :
    s.respond r = Handled.response (s.handle r.body? e) :=
  respond_of_posted hroute he.isPosted

theorem fits_of_readBody {layout : Layout} (hdefaults : layout.DefaultsFit) {body? : Option String}
    {body : OrderedMap Value} (h : readBody layout body? = .ok body) : layout.Fits body := by
  unfold readBody at h
  dsimp only at h
  split at h
  · cases h
  · split at h
    · cases h
    · cases h
    · cases h
    · next fs _ =>
      cases hconform : layout.conform fs with
      | error parts =>
        rw [hconform] at h
        cases h
      | ok fields =>
        rw [hconform] at h
        cases h
        exact layout.fits_of_conform hdefaults hconform
    · cases h

/-- A body with a formula has a record in its place. -/
theorem fits_formula {body : OrderedMap Value} (h : inlineLayout.Fits body) :
    (Shape.record formulaLayout).Fits (field body "formula") := by
  rcases h with ⟨hnull, -⟩ | ⟨v, more, rfl, hv, -⟩
  · -- the field is required, and null is no record
    obtain ⟨fs, hfs, -⟩ := hnull rfl
    cases hfs
  · exact hv

/-- The formula of an accepted body is read, or refused for a name. -/
theorem formulaIn_cases {v : Value} (h : (Shape.record formulaLayout).Fits v) :
    (∃ f, Formula.ofValue v = .ok f ∧ formulaIn v = .ok f)
      ∨ ∃ fault, Formula.ofValue v = .error fault
        ∧ formulaIn v = .error (problem "Invalid formula definition" fault.message) := by
  unfold formulaIn
  cases hread : Formula.ofValue v with
  | ok f => exact Or.inl ⟨f, rfl, rfl⟩
  | error fault =>
    have hname := Formula.failsOnly_ofValue h fault hread
    refine Or.inr ⟨fault, rfl, ?_⟩
    -- any other fault of a definition would escape
    cases fault <;> first | rfl | cases hname

/-! ## The endpoints -/

variable {s : Service} {r : Request} {body : OrderedMap Value}

theorem respond_inlinePrice (hroute : route r.method r.address = .ok .inlinePrice)
    (hbody : readBody inlineLayout r.body? = .ok body) :
    (∀ fault, Formula.ofValue (field body "formula") = .error fault →
      s.respond r = problem "Invalid formula definition" fault.message)
    ∧ ∀ f, Formula.ofValue (field body "formula") = .ok f →
      Settles s.levels (f.calculateWithin (recordField body "inputs") s.nesting s.levels)
        (s.respond r) := by
  have hfits := fits_formula (fits_of_readBody defaultsFit_inlineLayout hbody)
  have hrespond : s.respond r = Handled.response (formulaIn (field body "formula") >>= fun f =>
      s.priced f (recordField body "inputs")) := by
    rw [respond_of_route hroute trivial, Service.handle, hbody]
    rfl
  rw [hrespond]
  rcases formulaIn_cases hfits with ⟨f, hread, hf⟩ | ⟨fault, hread, hfault⟩
  · rw [hread, hf]
    refine ⟨nofun, fun g hg => ?_⟩
    cases hg
    exact settles_priced s f _
  · rw [hread, hfault]
    refine ⟨fun e he => ?_, nofun⟩
    cases he
    rfl

theorem stored_of_list {formulas : List Formula} (hload : s.catalog.list.result = .ok formulas)
    (id : String) :
    s.stored id = match formulas.find? (·.id == id) with
      | some f => .ok f
      | none => .error (.refuse 404 (.text (missingFormulaMessage id))) := by
  unfold Service.stored Catalog.formula?
  rw [hload]
  show (match formulas.find? (·.id == id) with
    | some f => (pure f : Handled Formula)
    | none => throw _) = _
  cases formulas.find? (·.id == id) <;> rfl

theorem respond_price {id : String} {formulas : List Formula}
    (hroute : route r.method r.address = .ok (.price id))
    (hbody : readBody answersLayout r.body? = .ok body)
    (hload : s.catalog.list.result = .ok formulas) :
    (formulas.find? (·.id == id) = none →
      s.respond r = .refuse 404 (.text (missingFormulaMessage id)))
    ∧ ∀ f, formulas.find? (·.id == id) = some f →
      Settles s.levels (f.calculateWithin (recordField body "inputs") s.nesting s.levels)
        (s.respond r) := by
  have hrespond : s.respond r = Handled.response (s.stored id >>= fun f =>
      s.priced f (recordField body "inputs")) := by
    rw [respond_of_route hroute trivial, Service.handle, hbody]
    rfl
  rw [hrespond, stored_of_list hload]
  cases formulas.find? (·.id == id) with
  | none => exact ⟨fun _ => rfl, nofun⟩
  | some f =>
    refine ⟨nofun, fun g hg => ?_⟩
    cases hg
    exact settles_priced s f _

theorem stored_eq_ok_iff {formulas : List Formula} (hload : s.catalog.list.result = .ok formulas)
    {id : String} {f : Formula} : s.stored id = .ok f ↔ formulas.find? (·.id == id) = some f := by
  rw [stored_of_list hload]
  cases formulas.find? (·.id == id) <;> simp

/-- What is asked for in a body, with the formulas that it names. -/
def requestOf (body : OrderedMap Value) (formulas : List Formula) : QuoteRequest where
  formulas := formulas
  answers := (recordField body "inputs").map fun e =>
    (e.1, match e.2 with
      | .record fields => fields
      | _ => [])
  shared := recordField body "shared_inputs"

theorem respond_quote {formulas : List Formula}
    (hroute : route r.method r.address = .ok .quote)
    (hbody : readBody quoteLayout r.body? = .ok body)
    (hload : s.catalog.list.result = .ok formulas) :
    (∀ id ∈ textItems body "formula_ids", formulas.find? (·.id == id) = none →
      ∃ missing ∈ textItems body "formula_ids", formulas.find? (·.id == missing) = none
        ∧ s.respond r = .refuse 404 (.text (missingFormulaMessage missing)))
    ∧ ∀ fs, List.Forall₂ (fun id f => formulas.find? (·.id == id) = some f)
        (textItems body "formula_ids") fs →
      SettlesQuote s.levels ((requestOf body fs).quoteWithin s.nesting s.levels)
        (s.respond r) := by
  have hrespond : s.respond r = Handled.response
      ((textItems body "formula_ids").mapM s.stored >>= fun fs =>
        orFailed ((requestOf body fs).quoteWithin s.nesting s.levels) >>= fun quote =>
          if quoteCalls quote ≤ s.levels then
            .ok (.ok (quoteValue quote)) else .error .failed) := by
    rw [respond_of_route hroute trivial, Service.handle, hbody]
    rfl
  rw [hrespond]
  have hfound : ∀ fs, (textItems body "formula_ids").mapM s.stored = .ok fs
      ↔ List.Forall₂ (fun id f => formulas.find? (·.id == id) = some f)
        (textItems body "formula_ids") fs := by
    intro fs
    simp only [mapM_eq_ok_iff, stored_eq_ok_iff hload]
  constructor
  · intro id hid hnone
    cases h : (textItems body "formula_ids").mapM s.stored with
    | ok fs =>
      obtain ⟨f, hf⟩ := exists_mapM_eq_ok_iff.mp ⟨fs, h⟩ id hid
      rw [stored_eq_ok_iff hload, hnone] at hf
      cases hf
    | error response =>
      obtain ⟨missing, hmem, hmissing⟩ := exists_of_mapM_eq_error h
      refine ⟨missing, hmem, ?_⟩
      rw [stored_of_list hload] at hmissing
      split at hmissing
      · cases hmissing
      · next hnot =>
        cases hmissing
        exact ⟨hnot, rfl⟩
  · intro fs hfs
    rw [(hfound fs).mpr hfs]
    exact settles_quoted _ _ _

/-- Without a catalog there is no answer to a request for stored formulas. -/
theorem respond_quote_of_unloaded {fault : LoadFault}
    (hroute : route r.method r.address = .ok .quote)
    (hbody : readBody quoteLayout r.body? = .ok body)
    (hload : s.catalog.list.result = .error fault) (hids : textItems body "formula_ids" ≠ []) :
    s.respond r = .failed := by
  have hstored : ∀ id, s.stored id = .error .failed := by
    intro id
    unfold Service.stored Catalog.formula?
    rw [hload]
    rfl
  obtain ⟨id, ids, hcons⟩ := List.exists_cons_of_ne_nil hids
  rw [respond_of_route hroute trivial, Service.handle, hbody]
  show Handled.response (Service.quoted s body) = .failed
  rw [Service.quoted, hcons, List.mapM_cons, hstored]
  rfl

/-! ## The main result -/

/-- Whether a body is accepted in the shape of a layout with no half of a character left in it: it
is the same whatever stands for one. -/
def Accepts (layout : Layout) (body? : Option String) (body : OrderedMap Value) : Prop :=
  ∀ half, readBody layout body? half = .ok body

/-- Whether a catalog loads its formulas with no half of a character left in them. -/
def Loads (c : Catalog) (formulas : List Formula) : Prop :=
  ∀ half, ({ c with half } : Catalog).list.result = .ok formulas

theorem accepts_of_plain {layout : Layout} {body? : Option String} {body : OrderedMap Value}
    (hplain : '\\' ∉ (body?.getD "").toList) (hbody : readBody layout body? = .ok body) :
    Accepts layout body? body := by
  intro half
  rw [← hbody]
  unfold readBody
  dsimp only
  -- a byte order mark is dropped before the text is read
  have hmarked : '\\' ∉ (if (body?.getD "").toList.head? = some '\ufeff' then
      (body?.getD "").toList.tail else (body?.getD "").toList) := by
    split
    · exact fun hmem => hplain (List.mem_of_mem_tail hmem)
    · exact hplain
  rw [Json.read_half hmarked _ half Json.defaultHalf]

theorem loads_of_plain {c : Catalog} {formulas : List Formula}
    (hplain : ∀ name octets cs, c.entryAt? name = some (.file octets) →
      Text.Utf8.decode octets = .ok cs → '\\' ∉ Text.plainLines cs)
    (hlist : c.list.result = .ok formulas) : Loads c formulas := by
  intro half
  have hload : ∀ name, ({ c with half } : Catalog).load name = c.load name := by
    intro name
    have hentry : ({ c with half } : Catalog).entryAt? name = c.entryAt? name := rfl
    rw [Catalog.load_eq, Catalog.load_eq, hentry]
    cases hfound : c.entryAt? name with
    | none => rfl
    | some entry =>
      cases entry with
      | directory entries => rfl
      | file octets =>
        exact readDefinition_half (fun cs hdecode => hplain name octets cs hfound hdecode) ..
  have hsame : ({ c with half } : Catalog).list = c.list := by
    unfold Catalog.list
    simp only [hload]
    rfl
  rw [hsame, hlist]

theorem Loads.result {c : Catalog} {formulas : List Formula} (h : Loads c formulas) :
    c.list.result = .ok formulas :=
  h c.half

/-- How many lists and records may be open at once in a formula that is sent along. It is taken
apart before it is read, and no deeper one is sure to be. -/
def inlineLevels : Nat := 200

/-- **What the pricing endpoints answer to a body that they accept.** A formula that is sent along
is refused for a name that stands for nothing, and a stored one if it is missing; otherwise the
response settles the calculation. All of these are answers, but for a price that is too long, for an
expression that there are not levels enough for, for a result that cannot be sent or copied, and for
a quote that fails. A calculation has the outcome that it has on any stack exactly if there are
levels enough for its expression. If all that is given can be sent, then a result can exactly if its
value is in the range of binary64 numbers; and it is nested hardly deeper than what is given. -/
theorem pricing_endpoints_answer (s : Service) (r : Request) :
    (route r.method r.address = .ok .inlinePrice →
      ∀ body, Accepts inlineLayout r.body? body →
        (field body "formula").isReadable inlineLevels = true →
        (∀ fault, Formula.ofValue (field body "formula") = .error fault →
          s.respond r = problem "Invalid formula definition" fault.message)
        ∧ ∀ f, Formula.ofValue (field body "formula") = .ok f →
          Settles s.levels (f.calculateWithin (recordField body "inputs") s.nesting s.levels)
            (s.respond r))
    ∧ (∀ id, route r.method r.address = .ok (.price id) →
      ∀ body, Accepts answersLayout r.body? body →
        ∀ formulas, Loads s.catalog formulas →
          (formulas.find? (·.id == id) = none →
            s.respond r = .refuse 404 (.text (missingFormulaMessage id)))
          ∧ ∀ f, formulas.find? (·.id == id) = some f →
            Settles s.levels (f.calculateWithin (recordField body "inputs") s.nesting s.levels)
              (s.respond r))
    ∧ (route r.method r.address = .ok .quote →
      ∀ body, Accepts quoteLayout r.body? body →
        (∀ fault, s.catalog.list.result = .error fault → textItems body "formula_ids" ≠ [] →
          s.respond r = .failed)
        ∧ ∀ formulas, Loads s.catalog formulas →
          (∀ id ∈ textItems body "formula_ids", formulas.find? (·.id == id) = none →
            ∃ missing ∈ textItems body "formula_ids", formulas.find? (·.id == missing) = none
              ∧ s.respond r = .refuse 404 (.text (missingFormulaMessage missing)))
          ∧ ∀ fs, List.Forall₂ (fun id f => formulas.find? (·.id == id) = some f)
              (textItems body "formula_ids") fs →
            SettlesQuote s.levels ((requestOf body fs).quoteWithin s.nesting s.levels)
              (s.respond r))
    ∧ (∀ (f : Formula) (answers : Answers) (depth k : Nat), f.isReadable k = true →
      (∀ e ∈ answers, e.2.isReadable k = true) →
        Limited (f.Fits answers depth s.levels) (f.calculate answers depth)
          (f.calculateWithin answers depth s.levels))
    ∧ ∀ (f : Formula) (answers : Answers) (depth : Nat) (result : PriceResult),
      f.calculate answers depth = .ok result →
        ((∀ v ∈ f.questions, v.Holds Sends) → (∀ e ∈ answers, Sends e.2) →
          (Sendable result ↔ Binary64.InRange result.value))
        ∧ ∀ n, 3 ≤ n → (∀ v ∈ f.questions, v.Holds fun value => copyCalls value ≤ n) →
          (∀ e ∈ answers, copyCalls e.2 ≤ n) → resultCalls result ≤ n + 5 := by
  refine ⟨fun hroute body hbody _ => respond_inlinePrice hroute (hbody _),
    fun id hroute body hbody formulas hload => respond_price hroute (hbody _) hload.result,
    fun hroute body hbody => ⟨fun fault hload hids => ?_, fun formulas hload => ?_⟩,
    fun f answers depth k hf hanswers => ?_, fun f answers depth result h => ⟨?_, ?_⟩⟩
  · exact respond_quote_of_unloaded hroute (hbody _) hload hids
  · exact respond_quote hroute (hbody _) hload.result
  · exact Formula.calculate_limited_of_isReadable hf fun e he =>
      Value.isShort_of_isReadable (hanswers e he)
  · exact sendable_iff_inRange h
  · exact fun n hn hf hanswers => resultCalls_le h hn hf hanswers

/-- A service with one stored formula. -/
def lawnService : Service where
  catalog := {
    path := ⟨"", ["formulas"]⟩
    entries? := some [("lawn.json", .file (Catalog.octetsOf
      "\x7b\"formula\": \"acres * 12\", \"variables\": [\x7b\"id\": \"acres\"\x7d]\x7d"))] }
  slugLimit := 50
  unitLimit := 20
  depth := 100

/-- The questions about a fence put nothing into a result but the prices of the extras. -/
theorem fence_holds {P : Value → Prop} (hnull : P .null) (hnone : P (.list []))
    (hprices : ∀ n ∈ [0, 120, 35], P (.int n)) : ∀ v ∈ Sample.fence.questions, v.Holds P := by
  have hextras : ∀ c ∈ Sample.extras.choices, P (.ofNumber c.number)
      ∧ P (.ofNumber c.unselected) ∧ ∀ m, c.multiplier? = some m → P (.ofNumber m) :=
    List.forall_mem_cons.mpr ⟨⟨hprices 120 (by decide), hprices 0 (by decide), nofun⟩,
      List.forall_mem_singleton.mpr ⟨hprices 35 (by decide), hprices 0 (by decide), nofun⟩⟩
  exact List.forall_mem_cons.mpr ⟨⟨hnull, hnull, List.forall_mem_nil _⟩,
    List.forall_mem_singleton.mpr ⟨hnull, hnone, hextras⟩⟩

theorem loads_lawn {formulas : List Formula}
    (hlist : lawnService.catalog.list.result = .ok formulas) :
    Loads lawnService.catalog formulas := by
  have hfiles : ∀ e ∈ lawnService.catalog.entries?.getD [], ∀ octets, e.2 = .file octets →
      ((Text.Utf8.decode octets).toOption.all fun cs => !(Text.plainLines cs).contains '\\')
        = true := by
    refine List.forall_mem_singleton.mpr ?_
    rintro _ ⟨⟩
    decide +kernel
  refine loads_of_plain (fun name octets cs hentry hdecode => ?_) hlist
  have hplain := hfiles _ (OrderedMap.mem_of_find? hentry) octets rfl
  rw [hdecode] at hplain
  -- the decoder has been run on the one file there is
  simpa [Except.toOption] using hplain

/-- A lawn is priced by itself, as a stored formula, and in a quote; and a fence has a result. -/
theorem pricing_endpoints_answer_lawn :
    let inline : Request :=
      ⟨"POST", "/calculate", some "\x7b\"formula\": \x7b\"formula\": \"2\"\x7d\x7d"⟩
    let stored : Request := ⟨"POST", "/api/formulas/lawn/calculate", some "\x7b\x7d"⟩
    let quote : Request := ⟨"POST", "/quote", some "\x7b\"formula_ids\": [\"lawn\"]\x7d"⟩
    let depth := lawnService.nesting
    let levels := lawnService.levels
    (∃ body f, Accepts inlineLayout inline.body? body
        ∧ Formula.ofValue (field body "formula") = .ok f
        ∧ Settles levels (f.calculateWithin (recordField body "inputs") depth levels)
          (lawnService.respond inline))
      ∧ (∃ body formulas f, Accepts answersLayout stored.body? body
        ∧ Loads lawnService.catalog formulas ∧ formulas.find? (·.id == "lawn") = some f
        ∧ Settles levels (f.calculateWithin (recordField body "inputs") depth levels)
          (lawnService.respond stored))
      ∧ (∃ body f, Accepts quoteLayout quote.body? body
        ∧ SettlesQuote levels ((requestOf body [f]).quoteWithin depth levels)
          (lawnService.respond quote))
      ∧ Limited (Sample.fence.Fits [("length", .int 3)] depth levels)
          (Sample.fence.calculate [("length", .int 3)] depth)
          (Sample.fence.calculateWithin [("length", .int 3)] depth levels)
      ∧ ∃ result, Sample.fence.calculate [("length", .int 3)] depth = .ok result
        ∧ (Sendable result ↔ Binary64.InRange result.value) ∧ resultCalls result ≤ 8 := by
  intro inline stored quote depth levels
  have hformula : ((readBody inlineLayout inline.body?).toOption.bind fun body =>
      if (field body "formula").isReadable inlineLevels then
        (Formula.ofValue (field body "formula")).toOption
      else none).isSome = true := by decide +kernel
  have hstored : (readBody answersLayout stored.body?).toOption.isSome = true := by decide +kernel
  have hids : (readBody quoteLayout quote.body?).toOption.map (textItems · "formula_ids")
      = some ["lawn"] := by decide +kernel
  have hlawn : (lawnService.catalog.list.result.toOption.bind fun formulas =>
      formulas.find? (·.id == "lawn")).isSome = true := by decide +kernel
  have hfence : (Sample.fence.calculate [("length", .int 3)] depth).toOption.isSome = true := by
    decide +kernel
  obtain ⟨f, hf⟩ := Option.isSome_iff_exists.mp hformula
  obtain ⟨inlineBody, hinline, hf⟩ := Option.bind_eq_some_iff.mp hf
  obtain ⟨hreadable, hf⟩ := Option.ite_none_right_eq_some.mp hf
  obtain ⟨storedBody, hstored⟩ := Option.isSome_iff_exists.mp hstored
  obtain ⟨quoteBody, hquote, hids⟩ := Option.map_eq_some_iff.mp hids
  obtain ⟨lawn, hlawn⟩ := Option.isSome_iff_exists.mp hlawn
  obtain ⟨formulas, hload, hfound⟩ := Option.bind_eq_some_iff.mp hlawn
  obtain ⟨result, hresult⟩ := Option.isSome_iff_exists.mp hfence
  replace hinline := accepts_of_plain (by decide) (eq_ok_of_toOption hinline)
  replace hf := eq_ok_of_toOption hf
  replace hstored := accepts_of_plain (by decide) (eq_ok_of_toOption hstored)
  replace hquote := accepts_of_plain (by decide) (eq_ok_of_toOption hquote)
  replace hload := loads_lawn (eq_ok_of_toOption hload)
  replace hresult := eq_ok_of_toOption hresult
  have hnamed : List.Forall₂ (fun id f => formulas.find? (·.id == id) = some f)
      (textItems quoteBody "formula_ids") [lawn] := by
    rw [hids]
    exact .cons hfound .nil
  obtain ⟨hinlinePrice, -⟩ := pricing_endpoints_answer lawnService inline
  obtain ⟨-, hprice, -⟩ := pricing_endpoints_answer lawnService stored
  obtain ⟨-, -, hquoted, hlimited, hresults⟩ := pricing_endpoints_answer lawnService quote
  have hfenceResult := hresults _ _ _ _ hresult
  refine ⟨⟨inlineBody, f, hinline, hf, ?_⟩,
    ⟨storedBody, formulas, lawn, hstored, hload, hfound, ?_⟩, ⟨quoteBody, lawn, hquote, ?_⟩, ?_,
    result, hresult, ?_, ?_⟩
  · exact (hinlinePrice (by decide +kernel) inlineBody hinline hreadable).2 f hf
  · exact (hprice "lawn" (by decide +kernel) storedBody hstored formulas hload).2 lawn hfound
  · exact ((hquoted (by decide +kernel) quoteBody hquote).2 formulas hload).2 [lawn] hnamed
  · exact hlimited Sample.fence _ depth 1 (by decide)
      (List.forall_mem_singleton.mpr (by decide))
  · exact hfenceResult.1 (fence_holds (by decide) (by decide) (by decide))
      (List.forall_mem_singleton.mpr (by decide))
  · exact hfenceResult.2 3 le_rfl (fence_holds (by decide) (by decide) (by decide))
      (List.forall_mem_singleton.mpr (by decide))

/-- A request for the price of a square whose side is long, and which costs at most a thousand. -/
def squareRequest : Request where
  method := "POST"
  address := "/calculate"
  body? := some ("\x7b\"formula\": \x7b\"formula\": \"x * x\", \"maxPrice\": 1000, \"variables\": "
    ++ "[\x7b\"id\": \"x\", \"name\": \"Side\", \"type\": \"number\"\x7d]\x7d, "
    ++ "\"inputs\": \x7b\"x\": \"1e155\"\x7d\x7d")

/-- **There is a result, and no answer.** The price is a thousand, but the value it was moved from
is beyond the range of binary64 numbers. -/
theorem result_beyond_range_fails :
    route squareRequest.method squareRequest.address = .ok .inlinePrice
      ∧ ((readBody inlineLayout squareRequest.body?).toOption.bind fun body =>
          (Formula.ofValue (field body "formula")).toOption.bind fun f =>
            (f.calculateWithin (recordField body "inputs") lawnService.nesting
              lawnService.levels).toOption.map (·.price))
        = some 1000
      ∧ (lawnService.respond squareRequest).status = 500 := by
  decide +kernel

end Tariff.Service

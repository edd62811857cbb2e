import Tariff.Proofs.FreshIds
import Tariff.Proofs.Service

/-!
# Requests for ids

The service suggests ids for labels, of options or of variables. Both kinds are made one after the
other, each different from those before it (`idsAfter`). Variables start with the ids that the
request says are in use, and options with none: `suggested_ids_are_fresh` tells what is so for both,
and `option_id_in_use` that an id in use may be suggested for an option.
-/

namespace Tariff.Service

open Identifier

/-- The ids for variables are made one after the other. -/
theorem variableIds_eq (limit : Int) (taken labels : List String) :
    variableIds limit taken labels = idsAfter "variable" limit taken labels := by
  induction labels generalizing taken with
  | nil => rfl
  | cons label labels ih =>
    rw [variableIds, idsAfter, ih]
    rfl

/-! ## What a request asks for -/

/-- The record in the body of a request. -/
def Request.record? (r : Request) : Option (OrderedMap Value) :=
  let cs := (r.body?.getD "").toList
  if cs.isEmpty then none
  else match Json.read (if cs.head? = some '\ufeff' then cs.tail else cs) with
    | .ok (.record fields) => some fields
    | _ => none

theorem readBody_of_record? {r : Request} {fields body : OrderedMap Value} {layout : Layout}
    (h : r.record? = some fields) (hconform : layout.conform fields = .ok body) :
    readBody layout r.body? = .ok body := by
  unfold Request.record? at h
  unfold Service.readBody
  dsimp only at h ⊢
  split at h
  · cases h
  · next hne =>
    rw [if_neg hne]
    split at h
    · next hread =>
      cases h
      rw [hread]
      show (layout.conform fields).mapError Response.reject = _
      rw [hconform]
      rfl
    · cases h

/-- The text that a value is. -/
def textOf? : Value → Option String
  | .text t => some t
  | _ => none

/-- The texts of a list that holds nothing else. -/
def textsOf? : Value → Option (List String)
  | .list items => items.mapM textOf?
  | _ => none

theorem textOf?_eq_some {v : Value} {t : String} (h : textOf? v = some t) : v = .text t := by
  cases v with
  | text s =>
    cases h
    rfl
  | _ => cases h

theorem textsOf?_eq_some {v : Value} {texts : List String} (h : textsOf? v = some texts) :
    v = textsValue texts := by
  cases v with
  | list items =>
    rw [textsOf?] at h
    induction items generalizing texts with
    | nil =>
      cases h
      rfl
    | cons v items ih =>
      rw [List.mapM_cons] at h
      obtain ⟨t, ht, h⟩ := Option.bind_eq_some_iff.mp h
      obtain ⟨rest, hrest, h⟩ := Option.bind_eq_some_iff.mp h
      cases h
      rw [textOf?_eq_some ht, Value.list.inj (ih hrest)]
      rfl
  | _ => cases h

/-- What a request for ids asks for. Where nothing is said, it asks for the ids of options, and no
ids are in use. -/
structure AsksForIds (fields : OrderedMap Value) (kind : String) (labels existing : List String) :
    Prop where
  given : (fields.find? "labels").bind textsOf? = some labels
  asked : textOf? ((fields.find? "kind").getD (.text "option")) = some kind
  known : kind = "option" ∨ kind = "variable"
  inUse : textsOf? ((fields.find? "existing").getD (.list [])) = some existing

instance (fields : OrderedMap Value) (kind : String) (labels existing : List String) :
    Decidable (AsksForIds fields kind labels existing) :=
  decidable_of_iff (_ ∧ _ ∧ _ ∧ _) ⟨fun ⟨hgiven, hasked, hknown, hinUse⟩ =>
    ⟨hgiven, hasked, hknown, hinUse⟩, fun h => ⟨h.given, h.asked, h.known, h.inUse⟩⟩

theorem conform_textsValue (texts : List String) :
    (Shape.list .text).conform (textsValue texts) = .ok (textsValue texts) := by
  have hall : Checked.all Shape.text.conform (texts.map .text) = .ok (texts.map .text) := by
    induction texts with
    | nil => rfl
    | cons t texts ih =>
      rw [List.map_cons, Checked.all, ih]
      rfl
  rw [textsValue, Shape.conform, hall]
  rfl

/-- A field that fits is taken over, and so is the value that takes its place. -/
theorem conform_cons_of_defaulting {given more : OrderedMap Value} {name : String} {d v : Value}
    {shape : Shape} {rest : Layout} (hv : (given.find? name).getD d = v)
    (hshape : shape.conform v = .ok v) (hnull : v.isNull = false)
    (hrest : rest.conform given = .ok more) :
    (Layout.cons name (.defaulting d) shape rest).conform given = .ok ((name, v) :: more) := by
  cases hfound : given.find? name with
  | none =>
    obtain rfl : d = v := by rw [← hv, hfound, Option.getD_none]
    simp [Layout.conform, hfound, hrest, Checked.both, hnull]
  | some w =>
    obtain rfl : w = v := by rw [← hv, hfound, Option.getD_some]
    simp [Layout.conform, hfound, hrest, hshape, Checked.both, hnull]

/-- A request for ids is accepted as it is. -/
theorem AsksForIds.conform {fields : OrderedMap Value} {kind : String}
    {labels existing : List String} (h : AsksForIds fields kind labels existing) :
    labelsLayout.conform fields = .ok [("labels", textsValue labels), ("kind", .text kind),
      ("existing", textsValue existing)] := by
  obtain ⟨v, hgiven, hv⟩ := Option.bind_eq_some_iff.mp h.given
  rw [textsOf?_eq_some hv] at hgiven
  have hkind : (Shape.word ["option", "variable"]).conform (.text kind) = .ok (.text kind) := by
    rcases h.known with rfl | rfl <;> rfl
  have hexisting :
      (Layout.ofList [("existing", .defaulting (.list []), .list .text)]).conform fields
      = .ok [("existing", textsValue existing)] :=
    conform_cons_of_defaulting (textsOf?_eq_some h.inUse) (conform_textsValue existing) rfl rfl
  have hlater := conform_cons_of_defaulting (textOf?_eq_some h.asked) hkind rfl hexisting
  show (Layout.cons "labels" .required (.list .text) _).conform fields = _
  simp only [Layout.conform, hgiven, conform_textsValue]
  show Checked.both _ _ ((Layout.ofList [("kind", _, _), ("existing", _, _)]).conform fields) = _
  exact (congrArg (Checked.both _ (.ok (textsValue labels))) hlater).trans rfl

theorem textItems_textsValue {body : OrderedMap Value} {name : String} (texts : List String)
    (h : body.find? name = some (textsValue texts)) : textItems body name = texts := by
  rw [textItems, Definition.field, h]
  show (texts.map Value.text).map Value.plain = texts
  rw [List.map_map]
  exact List.map_id texts

/-! ## What is answered -/

/-- Texts are sent as they are. -/
theorem ok_textsValue (texts : List String) :
    Response.ok (.record [("ids", textsValue texts)])
      = .answer 200 (.record [("ids", textsValue texts)]) := by
  have hpublic : publicParts (texts.map .text) = texts.map .text := by
    induction texts with
    | nil => rfl
    | cons t texts ih =>
      rw [List.map_cons, publicParts, ih]
      rfl
  rw [Response.ok_of_sends (by simp)]
  show Response.answer 200 (.record [("ids", .list (publicParts (texts.map .text)))]) = _
  rw [hpublic]
  rfl

/-- A request for ids is answered with those that are suggested. -/
theorem respond_identifiers {s : Service} {r : Request}
    (hroute : route r.method r.address = .ok .identifiers) {fields : OrderedMap Value}
    (hbody : r.record? = some fields) {kind : String} {labels existing : List String}
    (hasks : AsksForIds fields kind labels existing) :
    s.respond r = .answer 200 (.record [("ids", textsValue
      (suggestedIds s.slugLimit kind labels existing))]) := by
  rw [respond_of_posted hroute trivial, Service.handle, readBody_of_record? hbody hasks.conform]
  show Response.ok (.record [("ids", textsValue (suggestedIds s.slugLimit _ _ _))]) = _
  rw [textItems_textsValue labels rfl, textItems_textsValue existing rfl, ok_textsValue]
  rfl

/-- The ids that a request does not want to be suggested again: those of other variables. Options do
not look at the ids in use. -/
def avoided (kind : String) (existing : List String) : List String :=
  if kind = "option" then [] else existing

theorem suggestedIds_eq {kind : String} (h : kind = "option" ∨ kind = "variable") (limit : Int)
    (labels existing : List String) :
    suggestedIds limit kind labels existing
      = idsAfter kind limit (avoided kind existing) labels := by
  rcases h with rfl | rfl
  · exact forOptionsAfter_eq limit [] labels
  · exact variableIds_eq limit existing labels

/-- **Suggested ids are fresh among themselves, and those of variables are not in use.** Every
request for the ids of labels is answered with one id a label, in the order of the labels. No two of
them are the same. The id of a label is made with those before it, which for variables start with
the ids in use, and for options with none. -/
theorem suggested_ids_are_fresh (s : Service) (r : Request)
    (hroute : route r.method r.address = .ok .identifiers) {fields : OrderedMap Value}
    (hbody : r.record? = some fields) {kind : String} {labels existing : List String}
    (hasks : AsksForIds fields kind labels existing) :
    ∃ ids, s.respond r = .answer 200 (.record [("ids", textsValue ids)])
      ∧ ids.length = labels.length ∧ ids.Nodup
      ∧ (∀ id ∈ ids, id ∉ avoided kind existing)
      ∧ ∀ (i : Nat) (label : String), labels[i]? = some label →
        ids[i]? = some (forLabel kind label ((avoided kind existing).length + i)
          (avoided kind existing ++ ids.take i) s.slugLimit) := by
  have hrespond := respond_identifiers (s := s) hroute hbody hasks
  rw [suggestedIds_eq hasks.known] at hrespond
  obtain ⟨hnodup, hfresh⟩ := idsAfter_fresh kind s.slugLimit (avoided kind existing) labels
  exact ⟨_, hrespond, length_idsAfter _ _ _ _, hnodup, hfresh,
    fun i label => getElem?_idsAfter kind s.slugLimit _⟩

/-- Two more widths get ids that differ from the one in use and from each other. -/
theorem suggested_ids_are_fresh_widths :
    let r : Request := ⟨"POST", "/api/formulas/identifiers", some ("\x7b\"labels\": [\"Width\", "
      ++ "\" width!\"], \"kind\": \"variable\", \"existing\": [\"width\"]\x7d")⟩
    ∃ ids, lawnService.respond r = .answer 200 (.record [("ids", textsValue ids)])
      ∧ ids.length = 2 ∧ ids.Nodup ∧ (∀ id ∈ ids, id ∉ ["width"])
      ∧ ids[0]? = some (forLabel "variable" "Width" 1 ["width"] 50) := by
  intro r
  have hasks : ∃ fields, r.record? = some fields
      ∧ decide (AsksForIds fields "variable" ["Width", " width!"] ["width"]) = true :=
    (Option.any_eq_true _ _).mp (by decide +kernel)
  obtain ⟨fields, hread, hasks⟩ := hasks
  replace hasks := of_decide_eq_true hasks
  obtain ⟨ids, hrespond, hlength, hnodup, hfresh, hids⟩ :=
    suggested_ids_are_fresh lawnService r (by decide +kernel) hread hasks
  exact ⟨ids, hrespond, hlength, hnodup, hfresh, hids 0 "Width" rfl⟩

/-- **An id in use may be suggested for an option.** The same request for a variable would be
answered with another id. -/
theorem option_id_in_use :
    let r : Request := ⟨"POST", "/api/formulas/identifiers", some ("\x7b\"labels\": "
      ++ "[\"Two Story\"], \"kind\": \"option\", \"existing\": [\"two_story\"]\x7d")⟩
    (∃ fields, r.record? = some fields
        ∧ AsksForIds fields "option" ["Two Story"] ["two_story"])
      ∧ lawnService.respond r = .answer 200 (.record [("ids", textsValue ["two_story"])])
      ∧ suggestedIds 50 "variable" ["Two Story"] ["two_story"] = ["two_story_2"] := by
  intro r
  have hasks : ∃ fields, r.record? = some fields
      ∧ decide (AsksForIds fields "option" ["Two Story"] ["two_story"]) = true :=
    (Option.any_eq_true _ _).mp (by decide +kernel)
  obtain ⟨fields, hread, hasks⟩ := hasks
  replace hasks := of_decide_eq_true hasks
  exact ⟨⟨fields, hread, hasks⟩, respond_identifiers (by decide +kernel) hread hasks, by decide⟩

end Tariff.Service

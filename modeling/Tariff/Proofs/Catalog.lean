import Mathlib.Data.List.Forall2
import Tariff.Catalog
import Tariff.Proofs.OrderedMap
import Tariff.Proofs.Outcome

/-!
# Listings of a catalog

A listing is a fold over the names of the definitions. It stops at the first name whose fault is
not a matter of its file alone (`Listing.stopped?_ofNames`). As long as there is none, every name
leaves its formula or its fault (`Listing.accounts_ofNames`).

`Catalog.list_accounts` puts this together with the order of the names. A listing comes to its end
exactly if no file halts it. A file of well-formed JSON can, in which something else stands where a
record is needed, or an infinite price bound; and so can a file whose lists and records are nested
deeper than the reader goes. One such file is enough to hide the others (`Catalog.list_spoiled`).
-/

namespace Tariff

/-! ## Faults that halt a listing -/

/-- The fault that a listing does not go on after. -/
def LoadFault.obstacle? : Except LoadFault Formula → Option LoadFault
  | .ok _ => none
  | .error fault => if fault.isSkipped then none else some fault

theorem LoadFault.isSkipped_eq_false_iff {fault : LoadFault} :
    fault.isSkipped = false
      ↔ (∃ v, fault = .unfit (.notARecord v)) ∨ fault = .unfit .infiniteBound
        ∨ ∃ record, fault = .malformed (.tooDeep record) := by
  constructor
  · intro h
    unfold isSkipped at h
    split at h
    · next v => exact .inl ⟨v, rfl⟩
    · exact .inr (.inl rfl)
    · next record => exact .inr (.inr ⟨record, rfl⟩)
    · cases h
  · rintro (⟨v, rfl⟩ | rfl | ⟨record, rfl⟩) <;> rfl

namespace Listing

/-! ## One file -/

variable {name : String} {found : Except LoadFault Formula} {rest : Listing}

theorem stopped?_prepend :
    (rest.prepend name found).stopped? = (LoadFault.obstacle? found).or rest.stopped? := by
  cases found with
  | ok f => rfl
  | error fault =>
    rw [prepend, LoadFault.obstacle?]
    split <;> rfl

theorem prepend_of_obstacle_none (name : String) (rest : Listing)
    (h : LoadFault.obstacle? found = none) :
    (∃ f, found = .ok f ∧ rest.prepend name found = { rest with formulas := f :: rest.formulas })
      ∨ ∃ fault, found = .error fault
        ∧ rest.prepend name found = { rest with skipped := (name, fault) :: rest.skipped } := by
  cases found with
  | ok f => exact .inl ⟨f, rfl, rfl⟩
  | error fault =>
    have hskip : fault.isSkipped = true := by
      by_contra hfalse
      rw [LoadFault.obstacle?, if_neg hfalse] at h
      cases h
    exact .inr ⟨fault, rfl, by rw [prepend, if_pos hskip]⟩

/-! ## All files -/

/-- A listing of files that are loaded one by one. -/
def ofNames (load : String → Except LoadFault Formula) (names : List String) : Listing :=
  names.foldr (fun name rest => rest.prepend name (load name)) ⟨[], [], none⟩

variable {load : String → Except LoadFault Formula} {names : List String}

theorem stopped?_ofNames :
    (ofNames load names).stopped? =
      names.findSome? fun name => LoadFault.obstacle? (load name) := by
  induction names with
  | nil => rfl
  | cons name names ih =>
    have hstep : (ofNames load (name :: names)).stopped?
        = (LoadFault.obstacle? (load name)).or (ofNames load names).stopped? := stopped?_prepend
    rw [hstep, ih, List.findSome?_cons]
    cases LoadFault.obstacle? (load name) <;> rfl

/-- In the order of the names, each file that can be loaded has its formula in the one list, and
each other file its fault in the other. -/
structure Accounts (load : String → Except LoadFault Formula) (names : List String)
    (fs : List Formula) (skipped : OrderedMap LoadFault) : Prop where
  formulas : List.Forall₂ (fun name f => load name = .ok f)
    (names.filter fun name => (load name).isOk) fs
  skipped : List.Forall₂ (fun name entry => entry.1 = name ∧ load name = .error entry.2)
    (names.filter fun name => !(load name).isOk) skipped

theorem accounts_ofNames (h : ∀ name ∈ names, LoadFault.obstacle? (load name) = none) :
    Accounts load names (ofNames load names).formulas (ofNames load names).skipped := by
  induction names with
  | nil => exact ⟨.nil, .nil⟩
  | cons name names ih =>
    obtain ⟨hname, hnames⟩ := List.forall_mem_cons.mp h
    obtain ⟨hfs, hskipped⟩ := ih hnames
    have hcons : ofNames load (name :: names) = (ofNames load names).prepend name (load name) := rfl
    -- the file goes to the front of one list, and the other list stays as it was
    rcases prepend_of_obstacle_none name (ofNames load names) hname with
      ⟨f, hload, hlisting⟩ | ⟨fault, hload, hlisting⟩
    · have hok : (load name).isOk = true := by rw [hload]; rfl
      rw [hcons, hlisting]
      constructor
      · rw [List.filter_cons, if_pos hok]
        exact .cons hload hfs
      · rw [List.filter_cons, if_neg (by simp [hok])]
        exact hskipped
    · have hok : (load name).isOk = false := by rw [hload]; rfl
      rw [hcons, hlisting]
      constructor
      · rw [List.filter_cons, if_neg (by simp [hok])]
        exact hfs
      · rw [List.filter_cons, if_pos (by simp [hok])]
        exact .cons ⟨rfl, hload⟩ hskipped

theorem result_eq_ok_iff {l : Listing} {fs : List Formula} :
    l.result = .ok fs ↔ l.stopped? = none ∧ l.formulas = fs := by
  rw [result]
  cases l.stopped? <;> simp

theorem result_eq_error_iff {l : Listing} {fault : LoadFault} :
    l.result = .error fault ↔ l.stopped? = some fault := by
  rw [result]
  cases l.stopped? <;> simp

end Listing

namespace Catalog

variable {c : Catalog}

/-! ## Names -/

/-- The entry of a name. -/
def entryAt? (c : Catalog) (name : String) : Option Entry :=
  (c.entries?.getD []).find? name

theorem mem_names {name : String} :
    name ∈ c.names ↔ (c.entryAt? name).isSome = true ∧ isDefinitionName name = true := by
  have hkey : (c.entryAt? name).isSome = true ↔ name ∈ (c.entries?.getD []).keys := by
    rw [entryAt?, Option.isSome_iff_ne_none, ne_eq, OrderedMap.find?_eq_none_iff, not_not]
  rw [names, Answer.sortTexts, List.mem_mergeSort, List.mem_filter, hkey]
  rfl

theorem names_sorted (hkeys : (c.entries?.getD []).keys.Nodup) : c.names.Pairwise (· < ·) := by
  -- sorting puts equal names side by side, and no two are equal
  have hle : c.names.Pairwise fun a b => decide (a ≤ b) = true :=
    List.pairwise_mergeSort (by simpa using fun a b c => String.le_trans)
      (by simpa using fun a b => String.le_total a b) _
  have hnodup : c.names.Nodup := (List.mergeSort_perm _ _).nodup_iff.mpr (hkeys.filter _)
  refine (hle.and hnodup).imp fun {a b} h => ?_
  exact String.not_le.mp fun hge => h.2 (String.le_antisymm (of_decide_eq_true h.1) hge)

/-! ## Loading -/

theorem load_eq (c : Catalog) (name : String) :
    c.load name = match c.entryAt? name with
      | none => .error (.unreadable ⟨.missing, c.path.join name⟩)
      | some (.directory _) => .error (.unreadable ⟨.isADirectory, c.path.join name⟩)
      | some (.file octets) => readDefinition name octets c.levels c.half := by
  rw [load, entryAt?, OrderedMap.find?]
  cases List.lookup name (c.entries?.getD []) with
  | none => rfl
  | some e => cases e <;> rfl

/-- What a file loads to depends on the place of the catalog, on how it is read, and on that file.
-/
theorem load_congr {d : Catalog} {name : String} (hpath : d.path = c.path)
    (hlevels : d.levels = c.levels) (hhalf : d.half = c.half)
    (hentry : d.entryAt? name = c.entryAt? name) : d.load name = c.load name := by
  rw [load_eq, load_eq, hpath, hlevels, hhalf, hentry]

/-- What a file is read as, once it is opened and decoded. -/
def readAs? (c : Catalog) (name : String) : Option (Except Json.Fault Value) :=
  match c.entryAt? name with
  | some (.file octets) =>
    (Text.Utf8.decode octets).toOption.map fun cs => Json.read (Text.plainLines cs) c.levels c.half
  | _ => none

/-- A file is loaded if it is opened and decoded, if it is JSON, and if its value is a definition.
-/
theorem load_cases (c : Catalog) (name : String) :
    (c.readAs? name = none
        ∧ ((∃ fault, c.load name = .error (.unreadable fault))
          ∨ ∃ fault, c.load name = .error (.undecodable fault)))
      ∨ ∃ read, c.readAs? name = some read ∧ c.load name
        = read.mapError .malformed >>= fun value => (definitionIn name value).mapError .unfit := by
  rw [load_eq, readAs?]
  cases c.entryAt? name with
  | none => exact .inl ⟨rfl, .inl ⟨_, rfl⟩⟩
  | some entry =>
    cases entry with
    | directory entries => exact .inl ⟨rfl, .inl ⟨_, rfl⟩⟩
    | file octets =>
      dsimp only
      rw [readDefinition]
      cases Text.Utf8.decode octets with
      | error fault => exact .inl ⟨rfl, .inr ⟨fault, rfl⟩⟩
      | ok cs => exact .inr ⟨_, rfl, rfl⟩

/-- A file whose definition does not fit was opened, decoded and read. -/
theorem readAs?_of_unfit {name : String} {reason : Definition.Fault}
    (h : c.load name = .error (.unfit reason)) : ∃ v, c.readAs? name = some (.ok v) := by
  rcases c.load_cases name with ⟨-, ⟨fault, hload⟩ | ⟨fault, hload⟩⟩ | ⟨read, hread, hload⟩
  all_goals rw [h] at hload
  · cases hload
  · cases hload
  · cases read with
    | error fault => cases hload
    | ok v => exact ⟨v, hread⟩

/-- A file that is no JSON was opened and decoded. -/
theorem readAs?_of_malformed {name : String} {reason : Json.Fault}
    (h : c.load name = .error (.malformed reason)) : c.readAs? name = some (.error reason) := by
  rcases c.load_cases name with ⟨-, ⟨fault, hload⟩ | ⟨fault, hload⟩⟩ | ⟨read, hread, hload⟩
  all_goals rw [h] at hload
  · cases hload
  · cases hload
  · cases read with
    | error fault =>
      cases hload
      exact hread
    | ok v =>
      obtain ⟨reason', -, hreason⟩ := mapError_eq_error_iff.mp hload.symm
      cases hreason

/-- A file halts a listing if something else stands where its definition needs a record, if a price
bound of it is infinite, or if its lists and records are nested too deep. -/
def Halts (c : Catalog) (name : String) (fault : LoadFault) : Prop :=
  c.load name = .error fault
    ∧ ((∃ v, fault = .unfit (.notARecord v)) ∨ fault = .unfit .infiniteBound
      ∨ ∃ record, fault = .malformed (.tooDeep record))

theorem obstacle?_eq_some_iff {name : String} {fault : LoadFault} :
    LoadFault.obstacle? (c.load name) = some fault ↔ c.Halts name fault := by
  rw [Halts, ← LoadFault.isSkipped_eq_false_iff]
  cases hload : c.load name with
  | ok f => simp [LoadFault.obstacle?]
  | error found =>
    rw [LoadFault.obstacle?]
    split
    · next hskip =>
      simp only [reduceCtorEq, Except.error.injEq, false_iff, not_and]
      rintro rfl
      simp [hskip]
    · next hskip =>
      simp only [Option.some.injEq, Except.error.injEq, iff_self_and]
      rintro rfl
      simpa using hskip

theorem obstacle?_eq_none_iff {name : String} :
    LoadFault.obstacle? (c.load name) = none ↔ ∀ fault, ¬ c.Halts name fault := by
  simp only [← obstacle?_eq_some_iff, Option.eq_none_iff_forall_ne_some, ne_eq]

/-! ## Listings -/

theorem stopped?_eq_none_iff :
    c.list.stopped? = none ↔ ∀ name ∈ c.names, ∀ fault, ¬ c.Halts name fault := by
  simp only [← obstacle?_eq_none_iff]
  exact Listing.stopped?_ofNames ▸ List.findSome?_eq_none_iff

/-- What stops a listing is the first file that halts it. -/
theorem stopped?_eq_some_iff (hkeys : (c.entries?.getD []).keys.Nodup) {fault : LoadFault} :
    c.list.stopped? = some fault ↔ ∃ name ∈ c.names, c.Halts name fault
      ∧ ∀ earlier ∈ c.names, earlier < name → ∀ other, ¬ c.Halts earlier other := by
  have hstopped : c.list.stopped? = c.names.findSome? fun name =>
      LoadFault.obstacle? (c.load name) := Listing.stopped?_ofNames
  simp only [hstopped, List.findSome?_eq_some_iff, obstacle?_eq_some_iff, obstacle?_eq_none_iff]
  have hsorted := names_sorted hkeys
  constructor
  · rintro ⟨before, name, after, hsplit, hhalts, hbefore⟩
    refine ⟨name, by simp [hsplit], hhalts, fun earlier hmem hlt => hbefore earlier ?_⟩
    -- in the order of the names, what is less than the name stands before it
    rw [hsplit, List.pairwise_append, List.pairwise_cons] at hsorted
    rw [hsplit, List.mem_append, List.mem_cons] at hmem
    rcases hmem with hbefore | rfl | hafter
    · exact hbefore
    · exact absurd hlt (String.lt_irrefl _)
    · exact absurd hlt (String.lt_asymm (hsorted.2.1.1 earlier hafter))
  · rintro ⟨name, hmem, hhalts, hfirst⟩
    -- and what stands before the name is less than it
    obtain ⟨before, after, hsplit⟩ := List.append_of_mem hmem
    refine ⟨before, name, after, hsplit, hhalts, fun earlier hearlier => ?_⟩
    rw [hsplit, List.pairwise_append] at hsorted
    exact hfirst earlier (by simp [hsplit, hearlier])
      (hsorted.2.2 earlier hearlier name List.mem_cons_self)

/-- A listing that is not halted accounts for every definition, in the order of the names, and a
listing that is halted ends with the first fault that does so. A file can halt it only if its text
is JSON, or if more lists and records are opened in it than are read at once. -/
theorem list_accounts (c : Catalog) (hkeys : (c.entries?.getD []).keys.Nodup) :
    c.names.Pairwise (· < ·)
      ∧ (∀ name, name ∈ c.names ↔ (c.entryAt? name).isSome = true ∧ isDefinitionName name = true)
      ∧ ((∃ fs, c.list.result = .ok fs) ↔ ∀ name ∈ c.names, ∀ fault, ¬ c.Halts name fault)
      ∧ (∀ fs, c.list.result = .ok fs → Listing.Accounts c.load c.names fs c.list.skipped)
      ∧ (∀ fault, c.list.result = .error fault
        ↔ ∃ name ∈ c.names, c.Halts name fault
          ∧ ∀ earlier ∈ c.names, earlier < name → ∀ other, ¬ c.Halts earlier other)
      ∧ (∀ name fault, c.Halts name fault → (∃ v, c.readAs? name = some (.ok v))
        ∨ ∃ record, fault = .malformed (.tooDeep record)
          ∧ c.readAs? name = some (.error (.tooDeep record)))
      ∧ ∀ d : Catalog, d.path = c.path → d.levels = c.levels → d.half = c.half → ∀ name,
        d.entryAt? name = c.entryAt? name → d.load name = c.load name := by
  refine ⟨names_sorted hkeys, fun name => mem_names, ?_, ?_, ?_, ?_,
    fun d hpath hlevels hhalf name hentry => load_congr hpath hlevels hhalf hentry⟩
  · simp only [Listing.result_eq_ok_iff, exists_and_left, exists_eq', and_true,
      stopped?_eq_none_iff]
  · intro fs hfs
    obtain ⟨hend, rfl⟩ := Listing.result_eq_ok_iff.mp hfs
    refine Listing.accounts_ofNames fun name hmem => ?_
    exact obstacle?_eq_none_iff.mpr (stopped?_eq_none_iff.mp hend name hmem)
  · intro fault
    rw [Listing.result_eq_error_iff, stopped?_eq_some_iff hkeys]
  · rintro name fault ⟨hload, ⟨v, rfl⟩ | rfl | ⟨record, rfl⟩⟩
    · exact .inl (readAs?_of_unfit hload)
    · exact .inl (readAs?_of_unfit hload)
    · exact .inr ⟨record, rfl, readAs?_of_malformed hload⟩

/-! ## Two catalogs -/

/-- The octets of a text of ASCII characters. -/
def octetsOf (s : String) : List UInt8 :=
  s.toList.map fun ch => UInt8.ofNat ch.toNat

/-- A catalog of one definition, a text that is none, a directory and a file of another kind. -/
def mixed : Catalog where
  path := ⟨"", ["formulas"]⟩
  entries? := some [("fence.json", .file (octetsOf "\x7b\"formula\": \"1\"\x7d")),
    ("draft.json", .file (octetsOf "\x7b")), ("notes.txt", .file []), ("old.json", .directory [])]

/-- One definition is listed, and the broken text and the directory are recorded. -/
theorem list_accounts_mixed :
    (mixed.entries?.getD []).keys.Nodup
      ∧ ∃ fs, mixed.list.result = .ok fs
        ∧ Listing.Accounts mixed.load mixed.names fs mixed.list.skipped := by
  have hkeys : (mixed.entries?.getD []).keys.Nodup := by decide
  obtain ⟨-, hnames, hend, haccounts, -⟩ := list_accounts mixed hkeys
  have hclear : ∀ name ∈ (mixed.entries?.getD []).keys,
      (LoadFault.obstacle? (mixed.load name)).isNone = true := by decide +kernel
  -- all entries are checked, so the order of the names does not have to be computed
  obtain ⟨fs, hfs⟩ := hend.mpr fun name hmem => by
    have hkey : name ∈ (mixed.entries?.getD []).keys := by
      by_contra hnot
      have hnone := OrderedMap.find?_eq_none_iff.mpr hnot
      rw [hnames, entryAt?, hnone] at hmem
      exact Bool.noConfusion hmem.1
    exact obstacle?_eq_none_iff.mp (Option.isNone_iff_eq_none.mp (hclear name hkey))
  exact ⟨hkeys, fs, hfs, haccounts fs hfs⟩

/-- A catalog of two definitions, the first of which is a list. -/
def spoiled : Catalog where
  path := ⟨"", ["formulas"]⟩
  entries? := some [("a.json", .file (octetsOf "[]")),
    ("b.json", .file (octetsOf "\x7b\"formula\": \"1\"\x7d"))]

/-- The definition beside the list can be loaded, but nothing is listed. -/
theorem list_spoiled :
    (spoiled.entries?.getD []).keys.Nodup
      ∧ (∃ f, spoiled.load "b.json" = .ok f)
      ∧ ∀ fs, spoiled.list.result ≠ .ok fs := by
  have hloads : (spoiled.load "b.json").isOk = true := by decide +kernel
  have hobstacle : (LoadFault.obstacle? (spoiled.load "a.json")).isSome = true := by decide +kernel
  refine ⟨by decide, ?_, fun fs hfs => ?_⟩
  · cases hload : spoiled.load "b.json" with
    | ok f => exact ⟨f, rfl⟩
    | error fault => rw [hload] at hloads; cases hloads
  · have hname : "a.json" ∈ spoiled.names := mem_names.mpr (by decide)
    have hclear := stopped?_eq_none_iff.mp (Listing.result_eq_ok_iff.mp hfs).1 "a.json" hname
    rw [obstacle?_eq_none_iff.mpr hclear] at hobstacle
    cases hobstacle

end Catalog

end Tariff

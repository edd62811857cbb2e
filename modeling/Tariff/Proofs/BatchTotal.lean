import Mathlib.Algebra.Ring.Int.Defs
import Tariff.Console.Price
import Tariff.Proofs.Batch
import Tariff.Proofs.Sessions

/-!
# The total of a batch

A batch that is completed has read a stored formula and a table, has written the table with a price
or a reason for every row, and has told how many rows are priced, how many have failed, and what the
prices come to. The counts are those of the written table, and together they are all rows. The total
is kept in a word of 64 bits (`IsWordOf`), as every price is, but only the prices are kept from
leaving it: the total is their sum exactly if the sum fits too (`Console.price_tells_total`), and
two prices that fit are enough to make it negative (`Console.price_total_wraps`).
-/

namespace Tariff

/-! ## Tables that are read -/

namespace Csv

theorem Naming.length_settle (n : Naming) (place : Nat) :
    (n.settle place).names.length = n.names.length := by
  unfold Naming.settle
  dsimp only
  split
  · rfl
  · exact List.length_set

theorem length_columnNames (header : List String) :
    (columnNames header).length = header.length := by
  have hrun : ∀ (places : List Nat) (n : Naming),
      (places.foldl Naming.settle n).names.length = n.names.length := by
    intro places
    induction places with
    | nil => exact fun n => rfl
    | cons place places ih =>
      intro n
      rw [List.foldl_cons, ih, n.length_settle]
  rw [columnNames, hrun, List.length_map, List.length_zipIdx]

/-- No record is wider than the first two. -/
theorem length_le_widthOf {cs : List Char} {rs : List Record} (h : read cs = .ok rs) :
    ∀ r ∈ rs, r.fields.length ≤ widthOf rs := by
  unfold read at h
  generalize (if cs.head? = some '\ufeff' then cs.tail else cs) = text at h
  dsimp only at h
  split at h
  · cases h
  · cases h
  · next hwide _ =>
    -- no record from the third on was found to be wider than the first two
    split at h
    · cases h
    · obtain rfl := Except.ok.inj h
      generalize (records text).1 = rs at hwide
      rw [wide?, List.find?_eq_none] at hwide
      match rs with
      | [] => exact List.forall_mem_nil _
      | [header] => exact List.forall_mem_singleton.mpr (Nat.le_refl _)
      | header :: first :: rest =>
        refine List.forall_mem_cons.mpr ⟨Nat.le_max_left _ _, List.forall_mem_cons.mpr
          ⟨Nat.le_max_right _ _, fun r hr => ?_⟩⟩
        simpa using hwide r hr

theorem length_row {r : Record} {first width : Nat} (hr : r.fields.length ≤ width) :
    (row first width r).length = width - first := by
  rw [row, List.length_map, List.length_drop, List.length_append, List.length_replicate,
    Nat.add_sub_cancel' hr]

/-- **A table that is read is full**: its rows have as many cells as it has columns. -/
theorem isFull_of_readTable {cs : List Char} {t : Table} (h : readTable cs = .ok t) : t.IsFull := by
  obtain ⟨rs, hread, h⟩ := bind_eq_ok_iff.mp h
  have hwidth := length_le_widthOf hread
  match rs with
  | [] => cases h
  | header :: rows =>
    obtain rfl := Except.ok.inj h
    obtain ⟨hheader, hrows⟩ := List.forall_mem_cons.mp hwidth
    refine List.forall_mem_map.mpr fun r hr => ?_
    rw [length_row (hrows r hr), length_columnNames, Nat.sub_sub_self hheader]

end Csv

/-! ## Words of 64 bits -/

theorem fitsWord_iff {n : Int} : fitsWord n = true ↔ -2 ^ 63 ≤ n ∧ n < 2 ^ 63 := by
  rw [fitsWord, Bool.and_eq_true, decide_eq_true_eq, decide_eq_true_eq]
  rfl

/-- What a sum becomes in a word: a number that fits, and that differs from the sum by a multiple of
the number of words. It is the sum only if that fits. -/
structure IsWordOf (total sum : Int) : Prop where
  fits : fitsWord total = true
  wraps : (2 ^ 64 : Int) ∣ total - sum
  exact : total = sum ↔ fitsWord sum = true

theorem isWordOf_bmod (sum : Int) : IsWordOf (sum.bmod (Nat.pow 2 64)) sum := by
  have hfits : fitsWord (sum.bmod (Nat.pow 2 64)) = true := by
    have hlow := Int.le_bmod (x := sum) (m := 2 ^ 64) (by decide)
    have hhigh := Int.bmod_lt (x := sum) (m := 2 ^ 64) (by decide)
    exact fitsWord_iff.mpr ⟨by simpa using hlow, by simpa using hhigh⟩
  refine ⟨hfits, ?_, fun heq => heq ▸ hfits, fun h => ?_⟩
  · exact Int.dvd_bmod_sub_self
  · obtain ⟨hlow, hhigh⟩ := fitsWord_iff.mp h
    exact Int.bmod_eq_of_le (by simpa using hlow) (by simpa using hhigh)

theorem batchTotal_eq (outcomes : List RowOutcome) :
    batchTotal outcomes = (outcomes.filterMap RowOutcome.price?).sum.bmod (Nat.pow 2 64) := by
  rw [batchTotal, List.sum_eq_foldl]

/-! ## What a priced table shows -/

namespace Table

/-- The prices in the column for them, from the first row to the last. -/
def prices (t : Table) : List Int :=
  t.named.filterMap fun row => match row.find? "price" with
    | some (.int price) => some price
    | _ => none

/-- How many rows have a reason for having no price. -/
def failures (t : Table) : Nat :=
  t.named.countP fun row => (row.find? "error").any fun cell => !isBlankCell cell

variable {t : Table} {outcomes : List RowOutcome}

/-- The rows of a priced table show what came of them, in the order of the rows. -/
theorem forall₂_named_withOutcomes (h : t.IsFull) (hlength : outcomes.length = t.rows.length) :
    List.Forall₂ (fun (row : OrderedMap Value) o =>
        row.find? "price" = some o.priceCell ∧ row.find? "error" = some o.errorCell)
      (t.withOutcomes outcomes).named outcomes := by
  have hrows : (t.withOutcomes outcomes).named.length = t.rows.length := by
    rw [named, List.length_map, length_rows_withOutcomes hlength]
  refine List.forall₂_iff_get.mpr ⟨hrows.trans hlength.symm, fun i hi ho => ?_⟩
  have hrow : i < t.named.length := by
    rw [named, List.length_map, ← hlength]
    exact ho
  obtain ⟨after, hafter, hentered⟩ := exists_isEntered h (List.getElem?_eq_getElem hrow)
    (List.getElem?_eq_getElem ho)
  rw [List.getElem?_eq_getElem hi] at hafter
  obtain rfl := Option.some.inj hafter
  exact ⟨hentered.price, hentered.error⟩

theorem prices_withOutcomes (h : t.IsFull) (hlength : outcomes.length = t.rows.length) :
    (t.withOutcomes outcomes).prices = outcomes.filterMap RowOutcome.price? := by
  have hrows := forall₂_named_withOutcomes h hlength
  rw [prices]
  generalize (t.withOutcomes outcomes).named = rows at hrows
  clear hlength
  induction hrows with
  | nil => rfl
  | @cons row o rows outcomes hrow _ ih =>
    rw [List.filterMap_cons, List.filterMap_cons, hrow.1, ih]
    cases o <;> rfl

theorem failures_withOutcomes (h : t.IsFull) (hlength : outcomes.length = t.rows.length) :
    (t.withOutcomes outcomes).failures = outcomes.countP RowOutcome.isFailed := by
  have hrows := forall₂_named_withOutcomes h hlength
  rw [failures]
  generalize (t.withOutcomes outcomes).named = rows at hrows
  clear hlength
  induction hrows with
  | nil => rfl
  | @cons row o rows outcomes hrow _ ih =>
    rw [List.countP_cons, List.countP_cons, hrow.2, ih]
    cases o <;> rfl

end Table

/-- Every row is priced or has failed. -/
theorem length_prices_add_failed (outcomes : List RowOutcome) :
    (outcomes.filterMap RowOutcome.price?).length + outcomes.countP RowOutcome.isFailed
      = outcomes.length := by
  have hpriced : ∀ o : RowOutcome, o.price?.isSome = !o.isFailed := by
    intro o
    cases o <;> rfl
  rw [List.length_filterMap_eq_countP, List.length_eq_countP_add_countP RowOutcome.isFailed,
    Nat.add_comm]
  simp [hpriced]

theorem length_of_priceRows {f : Formula} {t : Table} {separator? : Option Text.Separator}
    {depth : Nat} {outcomes : List RowOutcome}
    (h : f.priceRows t separator? depth = .ok outcomes) : outcomes.length = t.rows.length := by
  rw [Formula.priceRows_eq, mapM_eq_ok_iff] at h
  exact h.length_eq.symm

/-! ## The command -/

namespace Console

theorem gives_readTable {input : Path} {s s' : State} {t : Table} :
    (readTable input).Gives s t s' ↔ s = s' ∧ ∃ octets cs, s.place.read input = .ok octets
      ∧ Text.Utf8.decode octets = .ok cs ∧ Csv.readTable cs = .ok t := by
  unfold readTable
  simp only [gives_bind, gives_get, gives_orFail]
  constructor
  · rintro ⟨_, _, ⟨rfl, rfl⟩, octets, _, ⟨hread, rfl⟩, cs, _, ⟨hdecode, rfl⟩, ht, rfl⟩
    exact ⟨rfl, octets, cs, hread, hdecode, ht⟩
  · rintro ⟨rfl, octets, cs, hread, hdecode, ht⟩
    exact ⟨_, _, ⟨rfl, rfl⟩, octets, _, ⟨hread, rfl⟩, cs, _, ⟨hdecode, rfl⟩, ht, rfl⟩

/-- A table is written below the directories that are there. -/
theorem gives_writeTable {output : Path} {t : Table} {s s' : State}
    (h : (writeTable output t).Gives s () s') :
    ∃ place, s.place.writeFile output (Csv.writeTable t).toUTF8.toList = .ok place
      ∧ s' = { s with place, written := s.written ++ [output] } := by
  unfold writeTable at h
  simp only [gives_bind, gives_get] at h
  obtain ⟨_, _, ⟨rfl, rfl⟩, h⟩ := h
  split at h
  · obtain ⟨_, _, hthrow, -⟩ := gives_bind.mp h
    exact absurd hthrow not_gives_throw
  · simp only [gives_bind, gives_orFail, gives_modify] at h
    obtain ⟨place, _, ⟨hplace, rfl⟩, rfl⟩ := h
    exact ⟨place, hplace, rfl⟩

/-- The catalog that a command looks into. -/
def catalogOf (i : Invocation) (settings : Settings) (place : Entry) : Catalog :=
  .below place (settings.formulasDir?.getD i.installation.formulasDir)

theorem gives_formula {i : Invocation} {settings : Settings} {id : String} {f : Formula}
    {s s' : State} (h : (i.formula settings id).Gives s f s') :
    s = s' ∧ (catalogOf i settings s.place).formula? id = .ok (some f) := by
  unfold Invocation.formula Invocation.catalog at h
  simp only [gives_bind, gives_get, gives_orFail, gives_pure] at h
  obtain ⟨_, _, ⟨_, _, ⟨rfl, rfl⟩, rfl, rfl⟩, found?, _, ⟨hfound, rfl⟩, h⟩ := h
  cases found? with
  | none =>
    obtain ⟨_, _, -, hexit⟩ := gives_bind.mp h
    exact absurd hexit not_gives_exit
  | some g =>
    obtain ⟨rfl, rfl⟩ := gives_pure.mp h
    exact ⟨rfl, hfound⟩

/-- What the command has read, given a place: the settings, the stored formula that the first
argument names, and the table in the file of the second. -/
structure Reads (i : Invocation) (place : Entry) (set : Settings) (f : Formula) (t : Table) :
    Prop where
  settings : Settings.load (Path.ofText i.installation.root) i.env = .ok set
  formula : ∃ id, i.args[0]? = some id ∧ (catalogOf i set place).formula? id = .ok (some f)
  table : ∃ input octets cs, i.args[1]? = some input ∧ place.read (Path.ofText input) = .ok octets
    ∧ Text.Utf8.decode octets = .ok cs ∧ Csv.readTable cs = .ok t

/-- The command once it is settled where the priced rows go. -/
def pricedTo (i : Invocation) (settings : Settings) (id : String) (input output : Path) :
    Session Unit := do
  let f ← i.formula settings id
  let table ← readTable input
  say ("Pricing " ++ toString table.rows.length ++ " rows with " ++ f.id ++ "...")
  let outcomes ← orFail Failure.ofBatch
    (f.priceRowsWithin table (some defaultSeparator) settings.nesting defaultLevels)
  writeTable output (table.withOutcomes outcomes)
  sayAll (outcomeLines output outcomes)

theorem gives_pricedTo {i : Invocation} {settings : Settings} {id : String} {input output : Path}
    {s s' : State} (h : (pricedTo i settings id input output).Gives s () s') :
    ∃ f t octets cs outcomes place,
      (catalogOf i settings s.place).formula? id = .ok (some f)
        ∧ s.place.read input = .ok octets ∧ Text.Utf8.decode octets = .ok cs
        ∧ Csv.readTable cs = .ok t
        ∧ f.priceRows t (some defaultSeparator) settings.nesting = .ok outcomes
        ∧ s.place.writeFile output (Csv.writeTable (t.withOutcomes outcomes)).toUTF8.toList
          = .ok place
        ∧ s'.place = place
        ∧ s'.printed = printedAfter s.printed
          (("Pricing " ++ toString t.rows.length ++ " rows with " ++ f.id ++ "...")
            :: outcomeLines output outcomes) := by
  obtain ⟨f, _, hf, h⟩ := gives_bind.mp h
  obtain ⟨rfl, hformula⟩ := gives_formula hf
  obtain ⟨t, _, ht, h⟩ := gives_bind.mp h
  obtain ⟨rfl, octets, cs, hread, hdecode, htable⟩ := gives_readTable.mp ht
  obtain ⟨_, _, hsay, h⟩ := gives_bind.mp h
  obtain rfl := gives_say.mp hsay
  obtain ⟨outcomes, _, hgives, h⟩ := gives_bind.mp h
  obtain ⟨houtcomes, rfl⟩ := gives_orFail.mp hgives
  obtain ⟨_, _, hwrite, h⟩ := gives_bind.mp h
  obtain ⟨place, hplace, rfl⟩ := gives_writeTable hwrite
  obtain rfl := gives_sayAll.mp h
  exact ⟨f, t, octets, cs, outcomes, place, hformula, hread, hdecode, htable,
    Formula.priceRows_of_priceRowsWithin houtcomes, hplace, rfl, rfl⟩

/-- The level of logging has to be known. -/
def checkLevel (settings : Settings) : Session Unit :=
  if !logLevels.contains settings.logLevel then throw (.failure (.unknownLevel settings.logLevel))
  else pure ()

/-- Where the priced rows go. -/
def outputOf (input : Path) (output? : Option Path) : Session Path :=
  output?.elim (defaultOutput input) pure

/-- The stages of the command. -/
theorem priceFile_eq (i : Invocation) (id : String) (input : Path) (output? : Option Path) :
    priceFile i id input output? = (do
      let settings ← i.settings
      checkLevel settings
      let output ← outputOf input output?
      pricedTo i settings id input output) := by
  unfold priceFile
  refine bind_congr fun settings => ?_
  unfold checkLevel
  dsimp only
  split <;> cases output? <;> rfl

theorem gives_checkLevel {settings : Settings} {s s' : State}
    (h : (checkLevel settings).Gives s () s') : s = s' := by
  unfold checkLevel at h
  split at h
  · exact absurd h not_gives_throw
  · exact (gives_pure.mp h).2

theorem gives_outputOf {input output : Path} {output? : Option Path} {s s' : State}
    (h : (outputOf input output?).Gives s output s') : s = s' := by
  cases output? with
  | some named => exact (gives_pure.mp h).2
  | none =>
    change (defaultOutput input).Gives s output s' at h
    unfold defaultOutput at h
    split at h
    · exact (gives_pure.mp h).2
    · exact absurd h not_gives_throw

theorem gives_priceFile {i : Invocation} {id : String} {input : Path} {output? : Option Path}
    {s s' : State} (h : (priceFile i id input output?).Gives s () s') :
    ∃ settings output, Settings.load (Path.ofText i.installation.root) i.env = .ok settings
      ∧ (pricedTo i settings id input output).Gives s () s' := by
  rw [priceFile_eq] at h
  obtain ⟨settings, _, hload, h⟩ := gives_bind.mp h
  obtain ⟨hsettings, rfl⟩ := gives_orFail.mp hload
  obtain ⟨_, _, hlevel, h⟩ := gives_bind.mp h
  obtain rfl := gives_checkLevel hlevel
  obtain ⟨output, _, houtput, h⟩ := gives_bind.mp h
  obtain rfl := gives_outputOf houtput
  exact ⟨settings, output, hsettings, h⟩

/-- A run of the command that gives a result has read a table and priced it. -/
theorem gives_price {i : Invocation} {s s' : State} (h : (price i).Gives s () s') :
    ∃ id input settings output, i.args[0]? = some id ∧ i.args[1]? = some input
      ∧ Settings.load (Path.ofText i.installation.root) i.env = .ok settings
      ∧ (pricedTo i settings id (Path.ofText input) output).Gives s () s' := by
  unfold price at h
  split at h
  · next id input more hargs =>
    obtain ⟨settings, output, hsettings, h⟩ := gives_priceFile h
    exact ⟨id, input, settings, output, by rw [hargs]; rfl, by rw [hargs]; rfl, hsettings, h⟩
  · obtain ⟨_, _, -, hexit⟩ := gives_bind.mp h
    exact absurd hexit not_gives_exit

/-! ## Codes of the command -/

section Exits

variable {p : Int → Prop}

theorem exitsWith_readTable (input : Path) : (readTable input).ExitsWith p :=
  exitsWith_bind exitsWith_get fun _ => exitsWith_bind exitsWith_orFail fun _ =>
    exitsWith_bind exitsWith_orFail fun _ => exitsWith_orFail

theorem exitsWith_writeTable (output : Path) (t : Table) : (writeTable output t).ExitsWith p := by
  refine exitsWith_bind exitsWith_get fun s => ?_
  dsimp only
  split
  · exact exitsWith_bind exitsWith_failure fun _ => exitsWith_bind exitsWith_orFail fun _ =>
      exitsWith_modify
  · exact exitsWith_bind exitsWith_orFail fun _ => exitsWith_modify

theorem exitsWith_formula (h : p 1) (i : Invocation) (settings : Settings) (id : String) :
    (i.formula settings id).ExitsWith p := by
  refine exitsWith_bind (exitsWith_bind exitsWith_get fun _ => exitsWith_pure) fun c =>
    exitsWith_bind exitsWith_orFail fun found? => ?_
  cases found? with
  | none => exact exitsWith_bind exitsWith_modify fun _ => exitsWith_exit h
  | some f => exact exitsWith_pure

theorem exitsWith_checkLevel (settings : Settings) : (checkLevel settings).ExitsWith p := by
  unfold checkLevel
  split
  · exact exitsWith_failure
  · exact exitsWith_pure

theorem exitsWith_outputOf (input : Path) (output? : Option Path) :
    (outputOf input output?).ExitsWith p := by
  cases output? with
  | some named => exact exitsWith_pure
  | none =>
    change (defaultOutput input).ExitsWith p
    unfold defaultOutput
    split
    · exact exitsWith_pure
    · exact exitsWith_failure

theorem exitsWith_pricedTo (h : p 1) (i : Invocation) (settings : Settings) (id : String)
    (input output : Path) : (pricedTo i settings id input output).ExitsWith p :=
  exitsWith_bind (exitsWith_formula h i settings id) fun _ =>
    exitsWith_bind (exitsWith_readTable input) fun _ => exitsWith_bind exitsWith_modify fun _ =>
      exitsWith_bind exitsWith_orFail fun _ => exitsWith_bind (exitsWith_writeTable _ _) fun _ =>
        exitsWith_sayAll

theorem exitsWith_price (h : p 1) (i : Invocation) : (price i).ExitsWith p := by
  unfold price
  split
  · rw [priceFile_eq]
    exact exitsWith_bind exitsWith_orFail fun settings =>
      exitsWith_bind (exitsWith_checkLevel settings) fun _ =>
        exitsWith_bind (exitsWith_outputOf _ _) fun output =>
          exitsWith_pricedTo h i settings _ _ output
  · exact exitsWith_bind exitsWith_sayAll fun _ => exitsWith_exit h

end Exits

/-! ## The main result -/

/-- The lines that are printed about a table and what was written of it. -/
def batchLines (id : String) (t : Table) (output : Path) (written : Table) (total : Int) :
    List String :=
  ["Pricing " ++ toString t.rows.length ++ " rows with " ++ id ++ "...",
    "✅ Wrote " ++ output.text, "  Priced: " ++ toString written.prices.length]
    ++ (if written.failures = 0 then [] else ["  ❌ Failed: " ++ toString written.failures])
    ++ ["  Total: " ++ Numeral.integerText total]

/-- The lines about the outcomes agree with the table that shows them. -/
theorem outcomeLines_eq {t : Table} {outcomes : List RowOutcome} (h : t.IsFull)
    (hlength : outcomes.length = t.rows.length) (id : String) (output : Path) :
    ("Pricing " ++ toString t.rows.length ++ " rows with " ++ id ++ "...")
        :: outcomeLines output outcomes
      = batchLines id t output (t.withOutcomes outcomes) (batchTotal outcomes) := by
  have hpriced : outcomes.length - outcomes.countP RowOutcome.isFailed
      = (outcomes.filterMap RowOutcome.price?).length := by
    rw [← length_prices_add_failed outcomes, Nat.add_sub_cancel]
  rw [batchLines, Table.prices_withOutcomes h hlength, Table.failures_withOutcomes h hlength,
    outcomeLines, hpriced]
  rfl

/-- What a completed batch has done from a place: it has read a formula and a table, has priced
every row and has written the prices; and it has told how many rows are priced, how many have
failed, and what the sum of the written prices is in a word. -/
structure IsBatch (i : Invocation) (place : Entry) (final : State) (settings : Settings)
    (f : Formula) (t : Table) (outcomes : List RowOutcome) (output : Path) (total : Int) :
    Prop where
  reads : Reads i place settings f t
  priced : f.priceRows t (some defaultSeparator) settings.nesting = .ok outcomes
  written : place.writeFile output (Csv.writeTable (t.withOutcomes outcomes)).toUTF8.toList
    = .ok final.place
  printed : final.printed
    = printedAfter "" (batchLines f.id t output (t.withOutcomes outcomes) total)
  rows : (t.withOutcomes outcomes).rows.length = t.rows.length
  counted : (t.withOutcomes outcomes).prices.length + (t.withOutcomes outcomes).failures
    = t.rows.length
  total : IsWordOf total (t.withOutcomes outcomes).prices.sum

/-- **What a completed batch tells.** The rows that are counted as priced are those with a price in
what was written, and with the failed ones they are all rows. The total is what the sum of the
written prices becomes in a word of 64 bits, so it is the sum exactly if that fits. -/
theorem price_tells_total (i : Invocation) (place : Entry) (launchEnd : LaunchEnd)
    (hcode : ((price i).run place launchEnd).code = 0)
    (hfailure : ((price i).run place launchEnd).failure? = none) :
    ∃ settings f t outcomes output total,
      IsBatch i place ((price i).run place launchEnd).state settings f t outcomes output total := by
  have hgives := Session.gives_of_run (exitsWith_price (by decide) i) hcode hfailure
  obtain ⟨id, input, settings, output, hid, hinput, hsettings, h⟩ := gives_price hgives
  obtain ⟨f, t, octets, cs, outcomes, after, hformula, hread, hdecode, htable, houtcomes, hwrite,
    hplace, hprinted⟩ := gives_pricedTo h
  have hfull := Csv.isFull_of_readTable htable
  have hlength := length_of_priceRows houtcomes
  refine ⟨settings, f, t, outcomes, output, batchTotal outcomes, {
    reads := ⟨hsettings, ⟨id, hid, hformula⟩, ⟨input, octets, cs, hinput, hread, hdecode, htable⟩⟩
    priced := houtcomes
    written := hplace ▸ hwrite
    printed := ?printed
    rows := Table.length_rows_withOutcomes hlength
    counted := ?counted
    total := ?total }⟩
  case printed => rw [hprinted, outcomeLines_eq hfull hlength]
  case counted =>
    rw [Table.prices_withOutcomes hfull hlength, Table.failures_withOutcomes hfull hlength,
      length_prices_add_failed, hlength]
  case total =>
    rw [Table.prices_withOutcomes hfull hlength, batchTotal_eq]
    exact isWordOf_bmod _

/-- Prices `in.csv` with the formula `f`. -/
def brimming : Invocation where
  installation := ⟨"python3", "/srv", .ofText "forms"⟩
  env := []
  args := ["f", "in.csv"]

/-- The rows of `in.csv`, and a formula that adds `n` to the greatest number that fits a word. -/
def brimmingPlace (rows : String) : Entry := .directory
  [("forms", .directory [("f.json", .file
      ("\x7b\"id\": \"f\", \"name\": \"F\", \"formula\": \"9223372036854775807 + n\", "
        ++ "\"variables\": [\x7b\"id\": \"n\", \"name\": \"N\", \"type\": \"number\"\x7d]\x7d"
        ).toUTF8.toList)]),
    ("in.csv", .file rows.toUTF8.toList)]

/-- The second row has no price that fits, and the total is the price of the first. -/
theorem price_tells_total_brimming :
    let outcome := (price brimming).run (brimmingPlace "n\n0\n1\n") (.returned 0)
    outcome.code = 0 ∧ outcome.failure? = none
      ∧ outcome.state.printed = "Pricing 2 rows with f...\n✅ Wrote in_priced.csv\n  Priced: 1\n"
        ++ "  ❌ Failed: 1\n  Total: 9223372036854775807\n"
      ∧ ∃ settings f t outcomes output total, IsBatch brimming (brimmingPlace "n\n0\n1\n")
        outcome.state settings f t outcomes output total := by
  intro outcome
  obtain ⟨hcode, hnone, hprinted⟩ : outcome.code = 0 ∧ outcome.failure?.isNone
      ∧ outcome.state.printed = "Pricing 2 rows with f...\n✅ Wrote in_priced.csv\n  Priced: 1\n"
        ++ "  ❌ Failed: 1\n  Total: 9223372036854775807\n" := by decide +kernel
  have hfailure : outcome.failure? = none := Option.isNone_iff_eq_none.mp hnone
  exact ⟨hcode, hfailure, hprinted, price_tells_total _ _ _ hcode hfailure⟩

/-- **Two prices that fit may have a sum that does not**: the total is negative. -/
theorem price_total_wraps :
    let outcome := (price brimming).run (brimmingPlace "n\n0\n0\n") (.returned 0)
    outcome.code = 0 ∧ outcome.failure?.isNone
      ∧ (outcome.state.place.read (.ofText "in_priced.csv")).toOption = some
        ("n,price,error,warnings\n0,9223372036854775807,,\n0,9223372036854775807,,\n").toUTF8.toList
      ∧ outcome.state.printed = "Pricing 2 rows with f...\n✅ Wrote in_priced.csv\n  Priced: 2\n"
        ++ "  Total: -2\n" := by
  decide +kernel

end Console

end Tariff

import Mathlib.Algebra.Group.Int.Defs
import Mathlib.Data.List.Forall2
import Tariff.Batch
import Tariff.Proofs.Calculation

/-!
# Batches

Every row of a table is priced by itself: a stage of the batch reads one row and no other
(`Formula.pricedRow`), and a column that is set changes one value of each row
(`Table.getElem?_named_setColumn`). So the outcomes of a batch are those that its rows have alone,
and the priced table shows them beside the rows (`Formula.priceRows_isolated`).

Two things a row does not keep to itself: a number with more digits than are written, and an
expression that there are not levels enough for (`Formula.pricedRowWithin_eq_error_iff`). Then there
is no batch at all, whatever the greatest price is (`Formula.priceRows_boxed`).
-/

namespace Tariff

open Expression Numeral

/-! ## Columns -/

namespace Table

variable {t : Table} {name : String} {cells : List Value}

/-- The table of some cells, each taken as one of a kind. -/
def ofCells (kind : CellKind) (columns : List String) (cells : List (List Value)) : Table where
  columns := columns
  rows := cells.map fun row => row.map kind.cell

/-- Every row has one cell for each column. -/
def IsFull (t : Table) : Prop :=
  ∀ row ∈ t.rows, row.length = t.columns.length

/-- The rows by the names of the columns. -/
def named (t : Table) : List (OrderedMap Value) :=
  t.rows.map t.namedRow

theorem keys_namedRow {row : List Value} (h : row.length = t.columns.length) :
    (t.namedRow row).keys = t.columns :=
  List.map_fst_zip (Nat.le_of_eq h.symm)

theorem keys_insert_namedRow {row : List Value} (h : row.length = t.columns.length)
    (cell : Value) : ((t.namedRow row).insert name cell).keys = t.columnsWith name := by
  by_cases hmem : name ∈ t.columns
  · rw [columnsWith, if_pos (by simpa using hmem),
      OrderedMap.keys_insert_of_mem (by rwa [keys_namedRow h]), keys_namedRow h]
  · rw [columnsWith, if_neg (by simpa using hmem),
      OrderedMap.insert_of_not_mem (by rwa [keys_namedRow h]), OrderedMap.keys, List.map_append]
    exact congrArg (· ++ [name]) (keys_namedRow h)

theorem namedRow_setColumn {row : List Value} (h : row.length = t.columns.length) (cell : Value) :
    (t.setColumn name cells).namedRow (((t.namedRow row).insert name cell).map (·.2))
      = (t.namedRow row).insert name cell := by
  -- the columns of the new table are the keys of the new row
  show (t.columnsWith name).zip _ = _
  rw [← keys_insert_namedRow h cell, OrderedMap.keys, List.zip_map']
  exact List.map_id _

theorem isFull_setColumn (h : t.IsFull) : (t.setColumn name cells).IsFull := by
  intro after hafter
  obtain ⟨⟨row, cell⟩, hmem, rfl⟩ : ∃ e ∈ t.rows.zip cells,
      ((t.namedRow e.1).insert name e.2).map (·.2) = after := by
    rw [setColumn, ← List.map_uncurry_zip_eq_zipWith] at hafter
    exact List.mem_map.mp hafter
  have hrow : row.length = t.columns.length := h row (List.of_mem_zip hmem).1
  show _ = (t.columnsWith name).length
  rw [← keys_insert_namedRow hrow cell, OrderedMap.keys, List.length_map, List.length_map]

/-- Setting a column sets one value of each row. -/
theorem getElem?_named_setColumn (h : t.IsFull) {i : Nat} {row : OrderedMap Value} {cell : Value}
    (hrow : t.named[i]? = some row) (hcell : cells[i]? = some cell) :
    (t.setColumn name cells).named[i]? = some (row.insert name cell) := by
  rw [named, List.getElem?_map, Option.map_eq_some_iff] at hrow
  obtain ⟨own, hown, rfl⟩ := hrow
  have hfull : own.length = t.columns.length := h own (List.mem_of_getElem? hown)
  have hset : (t.setColumn name cells).rows[i]?
      = some (((t.namedRow own).insert name cell).map (·.2)) := by
    rw [setColumn, List.getElem?_zipWith, hown, hcell]
  rw [named, List.getElem?_map, hset]
  exact congrArg some (namedRow_setColumn hfull cell)

end Table

/-! ## What is told of a row -/

namespace RowOutcome

/-- A price or a reason for having none, and no price that does not fit into 64 bits. -/
structure IsSound (o : RowOutcome) : Prop where
  exclusive : o.priceCell = .null ↔ o.errorCell ≠ .null
  bounds : ∀ price, o.priceCell = .int price → -2 ^ 63 ≤ price ∧ price < 2 ^ 63

/-- What came of a row stands in the columns for it, and all else is as it was. -/
structure IsEntered (o : RowOutcome) (row after : OrderedMap Value) : Prop where
  price : after.find? "price" = some o.priceCell
  error : after.find? "error" = some o.errorCell
  warnings : after.find? "warnings" = some o.warningsCell
  others : ∀ column, column ∉ ["price", "error", "warnings"] →
    after.find? column = row.find? column

theorem isSound_failed (fault : RowFault) : (failed fault).IsSound where
  exclusive := iff_of_true rfl nofun
  bounds := nofun

theorem isSound_priced {price : Int} {warnings : List String} (h : fitsWord price = true) :
    (priced price warnings).IsSound where
  exclusive := iff_of_false nofun fun hnull => hnull rfl
  bounds := by
    rintro _ ⟨⟩
    rw [fitsWord, Bool.and_eq_true, decide_eq_true_eq, decide_eq_true_eq] at h
    exact h

theorem isEntered_insert (o : RowOutcome) (row : OrderedMap Value) :
    o.IsEntered row (((row.insert "price" o.priceCell).insert "error" o.errorCell).insert
      "warnings" o.warningsCell) where
  price := by
    rw [OrderedMap.find?_insert_of_ne (by decide), OrderedMap.find?_insert_of_ne (by decide),
      OrderedMap.find?_insert_self]
  error := by
    rw [OrderedMap.find?_insert_of_ne (by decide), OrderedMap.find?_insert_self]
  warnings := OrderedMap.find?_insert_self
  others := by
    intro column hcolumn
    simp only [List.mem_cons, List.not_mem_nil, or_false, not_or] at hcolumn
    obtain ⟨hprice, herror, hwarnings⟩ := hcolumn
    rw [OrderedMap.find?_insert_of_ne hwarnings, OrderedMap.find?_insert_of_ne herror,
      OrderedMap.find?_insert_of_ne hprice]

end RowOutcome

theorem Table.length_rows_withOutcomes {t : Table} {outcomes : List RowOutcome}
    (h : outcomes.length = t.rows.length) :
    (t.withOutcomes outcomes).rows.length = t.rows.length := by
  simp [withOutcomes, setColumn, h]

/-- Every row of a priced table is the row it was, with what came of it. -/
theorem Table.exists_isEntered {t : Table} (h : t.IsFull) {outcomes : List RowOutcome} {i : Nat}
    {row : OrderedMap Value} {o : RowOutcome} (hrow : t.named[i]? = some row)
    (ho : outcomes[i]? = some o) :
    ∃ after, (t.withOutcomes outcomes).named[i]? = some after ∧ o.IsEntered row after := by
  have hcell : ∀ cell : RowOutcome → Value, (outcomes.map cell)[i]? = some (cell o) := by
    intro cell
    rw [List.getElem?_map, ho]
    rfl
  let priced := t.setColumn "price" (outcomes.map RowOutcome.priceCell)
  let explained := priced.setColumn "error" (outcomes.map RowOutcome.errorCell)
  have hpriced : priced.IsFull := isFull_setColumn h
  have hexplained : explained.IsFull := isFull_setColumn hpriced
  have hprice : priced.named[i]? = some (row.insert "price" o.priceCell) :=
    getElem?_named_setColumn h hrow (hcell _)
  have herror : explained.named[i]?
      = some ((row.insert "price" o.priceCell).insert "error" o.errorCell) :=
    getElem?_named_setColumn hpriced hprice (hcell _)
  exact ⟨_, getElem?_named_setColumn hexplained herror (hcell _), o.isEntered_insert row⟩

/-! ## One row -/

/-- With something that separates options, every cell can be read. -/
theorem Variable.exists_cellAnswer? (v : Variable) (separator : Text.Separator) (cell : Value) :
    ∃ answer?, v.cellAnswer? (some separator) cell = .ok answer? := by
  unfold cellAnswer?
  split
  · exact ⟨none, rfl⟩
  · cases cell <;> cases v.isMultiSelect <;> exact ⟨_, rfl⟩

/-- What a cell gives is the cell or a list of texts. -/
theorem Variable.yields_cellAnswer? (v : Variable) (separator : Text.Separator) {cell : Value}
    (hcell : cell.IsShort) :
    Yields (fun answer? => ∀ answer, answer? = some answer → answer.IsShort)
      (v.cellAnswer? (some separator) cell) := by
  unfold cellAnswer?
  split
  · exact .ok nofun
  · split
    · refine .ok ?_
      rintro _ ⟨⟩
      exact nofun
    · refine .ok ?_
      rintro _ ⟨⟩
      exact hcell
    · refine .ok ?_
      rintro _ ⟨⟩
      exact nofun
    · exact .error

namespace Formula

variable {f : Formula} {depth : Nat} {separator : Text.Separator} {row : OrderedMap Value}

/-- What comes of a row by itself. -/
def pricedRow (f : Formula) (separator? : Option Text.Separator) (depth : Nat)
    (row : OrderedMap Value) : Except BatchFault RowOutcome := do
  f.rowOutcome (← f.rowAnswers separator? row) depth

/-- What comes of a row by itself, on a stack with `levels` left to the calculation. -/
def pricedRowWithin (f : Formula) (separator? : Option Text.Separator) (depth levels : Nat)
    (row : OrderedMap Value) : Except (Halt BatchFault) RowOutcome := do
  f.rowOutcomeWithin (← (f.rowAnswers separator? row).mapError .fault) depth levels

/-- There are levels for the expression as the answers of a row fill it in. -/
def RowFits (f : Formula) (separator : Text.Separator) (depth levels : Nat)
    (row : OrderedMap Value) : Prop :=
  ∀ answers, f.rowAnswers (some separator) row = .ok answers → f.Fits answers depth levels

/-- The answers of a row give the expression a number with more digits than are written. -/
def Overflows (f : Formula) (separator : Text.Separator) (depth : Nat) (row : OrderedMap Value) :
    Prop :=
  ∃ answers rounded, f.rowAnswers (some separator) row = .ok answers
    ∧ f.roundedUnder answers depth = .ok rounded
    ∧ (10 ^ Json.maxIntegerDigits ≤ rounded.natAbs
      ∨ 10 ^ Json.maxIntegerDigits ≤ (f.range.clamp rounded).1.natAbs)

/-- The answers of a row contribute a number with more digits than are written. -/
def IsRowOverlong (f : Formula) (separator : Text.Separator) (row : OrderedMap Value) : Prop :=
  ∃ answers, f.rowAnswers (some separator) row = .ok answers ∧ f.IsOverlong answers

theorem exists_rowAnswers (f : Formula) (separator : Text.Separator) (row : OrderedMap Value) :
    ∃ answers, f.rowAnswers (some separator) row = .ok answers := by
  refine exists_foldlM_eq_ok (fun answers v => ?_) f.questions []
  cases row.find? v.id with
  | none => exact ⟨answers, rfl⟩
  | some cell =>
    obtain ⟨answer?, hcell⟩ := v.exists_cellAnswer? separator cell
    simp only [hcell]
    cases answer? <;> exact ⟨_, rfl⟩

theorem rowOutcome_eq_error_iff {answers : Answers} {fault : BatchFault} :
    f.rowOutcome answers depth = .error fault
      ↔ fault = .longPrice ∧ ∃ rounded, f.roundedUnder answers depth = .ok rounded
        ∧ ¬ f.IsShown rounded := by
  rw [rowOutcome]
  constructor
  · intro h
    split at h
    · next hlong =>
      cases h
      exact ⟨rfl, exists_not_isShown hlong⟩
    -- a fault of the evaluation is an outcome of the row, and so is a result
    · cases h
    · cases h
  · rintro ⟨rfl, rounded, hrounded, hlong⟩
    rw [calculate_of_not_isShown hrounded hlong]

theorem isSound_of_rowOutcome {answers : Answers} {o : RowOutcome}
    (h : f.rowOutcome answers depth = .ok o) : o.IsSound := by
  rw [rowOutcome] at h
  split at h
  · cases h
  · cases h
    exact RowOutcome.isSound_failed _
  · next result _ =>
    cases h
    split
    · next hfits => exact RowOutcome.isSound_priced hfits
    · exact RowOutcome.isSound_failed _

theorem pricedRow_eq_error_iff {fault : BatchFault} :
    f.pricedRow (some separator) depth row = .error fault
      ↔ fault = .longPrice ∧ f.Overflows separator depth row := by
  obtain ⟨answers, hanswers⟩ := f.exists_rowAnswers separator row
  have hrow : f.pricedRow (some separator) depth row = f.rowOutcome answers depth := by
    rw [pricedRow, hanswers]
    rfl
  simp only [hrow, rowOutcome_eq_error_iff, Overflows, hanswers, not_isShown_iff,
    Except.ok.injEq, exists_and_left, exists_eq_left']

theorem isSound_of_pricedRow {separator? : Option Text.Separator} {o : RowOutcome}
    (h : f.pricedRow separator? depth row = .ok o) : o.IsSound := by
  obtain ⟨answers, -, houtcome⟩ := bind_eq_ok_iff.mp h
  exact isSound_of_rowOutcome houtcome

/-! ## One row on a stack of limited height -/

variable {levels k : Nat}

/-- A row gives no answers but its cells and texts in them. -/
theorem yields_rowAnswers (hrow : ∀ e ∈ row, e.2.IsShort) :
    Yields (fun answers => ∀ e ∈ answers, e.2.IsShort) (f.rowAnswers (some separator) row) := by
  refine .foldlM (List.forall_mem_nil _) fun answers hanswers v _ => ?_
  split
  · exact .ok hanswers
  · next cell hcell =>
    have hshort : cell.IsShort := hrow _ (OrderedMap.mem_of_find? hcell)
    refine .bind (v.yields_cellAnswer? separator hshort) fun answer? hanswer => ?_
    cases answer? with
    | none => exact .ok hanswers
    | some answer =>
      refine .ok fun e he => ?_
      rcases OrderedMap.mem_of_mem_insert he with rfl | he
      · exact hanswer answer rfl
      · exact hanswers e he

theorem rowOutcome_limited (hf : f.isReadable k = true) {answers : Answers}
    (hanswers : ∀ e ∈ answers, e.2.IsShort) :
    Limited (f.Fits answers depth levels) (f.rowOutcome answers depth)
      (f.rowOutcomeWithin answers depth levels) := by
  have hlimited : Limited (f.Fits answers depth levels) (f.calculate answers depth)
      (f.calculateWithin answers depth levels) := calculate_limited_of_isReadable hf hanswers
  rw [rowOutcomeWithin]
  by_cases hfits : f.Fits answers depth levels
  · rw [hlimited.within hfits]
    -- a number that is too long is a fault with a stack or without
    cases hcalculate : f.calculate answers depth with
    | ok r => exact .of hfits
    | error fault =>
      cases fault with
      | evaluation fault => exact .of hfits
      | longPrice =>
        rw [rowOutcome, hcalculate]
        exact .of hfits
  · rw [hlimited.beyond hfits]
    exact .of_not hfits

/-- **A row comes to an end on every stack that is high enough for its expression.** -/
theorem pricedRow_limited (hf : f.isReadable k = true) (hrow : ∀ e ∈ row, e.2.IsShort) :
    Limited (f.RowFits separator depth levels row) (f.pricedRow (some separator) depth row)
      (f.pricedRowWithin (some separator) depth levels row) := by
  refine ((Limited.of (p := True) trivial).bind fun _ answers hanswers =>
    rowOutcome_limited hf (yields_rowAnswers hrow answers hanswers)).congr ?_
  rw [true_and]
  rfl

theorem pricedRowWithin_eq_error_iff (hf : f.isReadable k = true) (hrow : ∀ e ∈ row, e.2.IsShort)
    {halt : Halt BatchFault} :
    f.pricedRowWithin (some separator) depth levels row = .error halt
      ↔ (halt = .stack ∧ ¬ f.RowFits separator depth levels row)
        ∨ (halt = .fault .longPrice ∧ f.RowFits separator depth levels row
          ∧ f.Overflows separator depth row) := by
  have hlimited : Limited (f.RowFits separator depth levels row) _ _ := pricedRow_limited hf hrow
  cases halt with
  | stack => simp [hlimited.eq_stack_iff]
  | fault fault =>
    rw [hlimited.eq_fault_iff, pricedRow_eq_error_iff]
    simp [and_left_comm]

theorem pricedRowWithin_of_overlong (h : f.IsRowOverlong separator row) :
    f.pricedRowWithin (some separator) depth levels row = .error (.fault .longPrice) := by
  obtain ⟨answers, hanswers, hlong⟩ := h
  rw [pricedRowWithin, hanswers]
  show f.rowOutcomeWithin answers depth levels = _
  rw [rowOutcomeWithin, calculateWithin_of_overlong hlong]

/-! ## All rows -/

theorem priceRows_eq (f : Formula) (t : Table) (separator? : Option Text.Separator) (depth : Nat) :
    f.priceRows t separator? depth
      = t.rows.mapM fun row => f.pricedRow separator? depth (t.namedRow row) := rfl

theorem priceRowsWithin_eq (f : Formula) (t : Table) (separator? : Option Text.Separator)
    (depth levels : Nat) :
    f.priceRowsWithin t separator? depth levels
      = t.rows.mapM fun row => f.pricedRowWithin separator? depth (levels - 1) (t.namedRow row) :=
        rfl

theorem isSound_of_priceRows {t : Table} {separator? : Option Text.Separator}
    {outcomes : List RowOutcome} (h : f.priceRows t separator? depth = .ok outcomes) :
    ∀ o ∈ outcomes, o.IsSound := by
  rw [priceRows_eq, mapM_eq_ok_iff] at h
  generalize t.rows = rows at h
  induction h with
  | nil => exact fun o ho => nomatch ho
  | cons hrow _ ih => exact List.forall_mem_cons.mpr ⟨isSound_of_pricedRow hrow, ih⟩

/-- The outcomes of a batch on a stack of limited height are those on any stack. -/
theorem priceRows_of_priceRowsWithin {t : Table} {separator? : Option Text.Separator}
    {outcomes : List RowOutcome} (h : f.priceRowsWithin t separator? depth levels = .ok outcomes) :
    f.priceRows t separator? depth = .ok outcomes := by
  have hrow : ∀ row o, f.pricedRowWithin separator? depth (levels - 1) row = .ok o →
      f.pricedRow separator? depth row = .ok o := by
    intro row o ho
    obtain ⟨answers, hanswers, houtcome⟩ := bind_eq_ok_iff.mp ho
    refine bind_eq_ok_iff.mpr ⟨answers, mapError_eq_ok_iff.mp hanswers, ?_⟩
    rw [rowOutcomeWithin] at houtcome
    split at houtcome
    · cases houtcome
    · cases houtcome
    · exact mapError_eq_ok_iff.mp houtcome
  rw [priceRowsWithin_eq, mapM_eq_ok_iff] at h
  rw [priceRows_eq, mapM_eq_ok_iff]
  exact h.imp fun row o => hrow _ o

/-- What comes of a batch with one row is what comes of the row. -/
theorem priceRowsWithin_singleton {kind : CellKind} {columns : List String} {row : List Value}
    {separator? : Option Text.Separator} :
    f.priceRowsWithin (.ofCells kind columns [row]) separator? depth levels
      = (f.pricedRowWithin separator? depth (levels - 1) (columns.zip (row.map kind.cell))).map
        fun o => [o] := by
  show [row.map kind.cell].mapM (fun own =>
    f.pricedRowWithin separator? depth (levels - 1) (columns.zip own)) = _
  rw [List.mapM_cons, List.mapM_nil]
  cases f.pricedRowWithin separator? depth (levels - 1) (columns.zip (row.map kind.cell)) <;> rfl

/-- A cell of any kind is short if the value that it is made from can be stored. -/
theorem isShort_cell (kind : CellKind) {cell : Value} (h : cell.isReadable k = true) :
    (kind.cell cell).IsShort := by
  have hcell := Value.isShort_of_isReadable h
  cases kind with
  | any => exact hcell
  | truth => exact nofun
  | real => cases cell <;> first | exact hcell | exact nofun
  | whole =>
    cases cell with
    | bool b =>
      rintro _ ⟨⟩
      cases b <;> decide
    | _ => exact hcell

/-- **The rows of a batch are isolated.** They have the outcomes that they have alone, in their
order, each with a price in range or with a reason for having none, and these are what the priced
table shows. Only two things of a row leave all of them without an outcome, and the first row that
has one of them decides: there are not levels enough for its expression, or its number is too long.
What a row does by itself is told for all formulas and cells that can be stored and that are nested
half as deep as there are levels, and for cells that are whole numbers of any length: such a number
could not be stored, and it fails its row if it is contributed. -/
theorem priceRows_isolated (f : Formula) (kind : CellKind) (columns : List String)
    (cells : List (List Value)) (separator : Text.Separator) (depth levels : Nat)
    (hwidth : ∀ row ∈ cells, row.length = columns.length)
    (hf : f.isReadable (levels / 2) = true) :
    (∀ outcomes,
        f.priceRowsWithin (.ofCells kind columns cells) (some separator) depth levels = .ok outcomes
        ↔ List.Forall₂ (fun row o =>
          f.priceRowsWithin (.ofCells kind columns [row]) (some separator) depth levels = .ok [o])
          cells outcomes)
      ∧ (∀ halt,
        f.priceRowsWithin (.ofCells kind columns cells) (some separator) depth levels = .error halt
        ↔ ∃ front row rest, cells = front ++ row :: rest
          ∧ (∀ other ∈ front, ∃ o, f.priceRowsWithin (.ofCells kind columns [other])
            (some separator) depth levels = .ok [o])
          ∧ f.priceRowsWithin (.ofCells kind columns [row]) (some separator) depth levels
            = .error halt)
      ∧ (∀ row ∈ cells, (∀ cell ∈ row, cell.isReadable (levels / 2) = true) → ∀ halt,
        f.priceRowsWithin (.ofCells kind columns [row]) (some separator) depth levels = .error halt
        ↔ (halt = .stack
            ∧ ¬ f.RowFits separator depth (levels - 1) (columns.zip (row.map kind.cell)))
          ∨ (halt = .fault .longPrice
            ∧ f.RowFits separator depth (levels - 1) (columns.zip (row.map kind.cell))
            ∧ f.Overflows separator depth (columns.zip (row.map kind.cell))))
      ∧ (∀ row ∈ cells, (∀ cell ∈ row, cell.isReadable (levels / 2) = true ∨ ∃ n, cell = .int n) →
        f.IsRowOverlong separator (columns.zip (row.map kind.cell)) →
        f.priceRowsWithin (.ofCells kind columns [row]) (some separator) depth levels
          = .error (.fault .longPrice))
      ∧ ∀ outcomes,
        f.priceRowsWithin (.ofCells kind columns cells) (some separator) depth levels
            = .ok outcomes →
        (∀ o ∈ outcomes, o.IsSound)
          ∧ ((Table.ofCells kind columns cells).withOutcomes outcomes).rows.length = cells.length
          ∧ ∀ (i : Nat) (row : OrderedMap Value) (o : RowOutcome),
            (Table.ofCells kind columns cells).named[i]? = some row → outcomes[i]? = some o →
            ∃ after,
              ((Table.ofCells kind columns cells).withOutcomes outcomes).named[i]? = some after
                ∧ o.IsEntered row after := by
  let alone (row : List Value) : Except (Halt BatchFault) RowOutcome :=
    f.pricedRowWithin (some separator) depth (levels - 1) (columns.zip (row.map kind.cell))
  have hbatch : f.priceRowsWithin (.ofCells kind columns cells) (some separator) depth levels
      = cells.mapM alone := List.mapM_map ..
  have halone : ∀ row, f.priceRowsWithin (.ofCells kind columns [row]) (some separator) depth levels
      = (alone row).map fun o => [o] := fun row => priceRowsWithin_singleton
  have hsingle : ∀ row o, ((alone row).map fun o => [o]) = .ok [o] ↔ alone row = .ok o := by
    intro row o
    simp [map_eq_ok_iff]
  have hfails : ∀ row halt, ((alone row).map fun o => [o]) = .error halt ↔
      alone row = .error halt := by
    intro row halt
    cases alone row <;> simp [Except.map]
  have hrows : ∀ outcomes, cells.mapM alone = .ok outcomes
      ↔ List.Forall₂ (fun row o => alone row = .ok o) cells outcomes := fun _ => mapM_eq_ok_iff
  simp only [hbatch, halone, hsingle, hfails]
  refine ⟨hrows, fun halt => mapM_eq_error_iff, fun row _ hcells halt => ?_,
    fun row _ _ => pricedRowWithin_of_overlong, fun outcomes h => ?_⟩
  · refine pricedRowWithin_eq_error_iff hf fun e he => ?_
    obtain ⟨cell, hcell, heq⟩ := List.mem_map.mp (List.of_mem_zip he).2
    rw [← heq]
    exact isShort_cell kind (hcells cell hcell)
  · have hfull : (Table.ofCells kind columns cells).IsFull := by
      intro own hown
      obtain ⟨given, hgiven, rfl⟩ := List.mem_map.mp hown
      rw [List.length_map]
      exact hwidth given hgiven
    have hlength : (Table.ofCells kind columns cells).rows.length = cells.length :=
      List.length_map _
    have hcount : outcomes.length = cells.length := ((hrows outcomes).mp h).length_eq.symm
    rw [← hbatch] at h
    refine ⟨isSound_of_priceRows (priceRows_of_priceRowsWithin h), ?_,
      fun i row o hrow ho => Table.exists_isEntered hfull hrow ho⟩
    rw [Table.length_rows_withOutcomes (hcount.trans hlength.symm), hlength]

/-- A gate is priced by what is left of a fence. The fence of four has a price although nothing is
left of the one of two. -/
theorem priceRows_isolated_gate :
    let gate := Sample.priced "100 / (length - 2)" [Sample.count "length"]
    let cells := [[.int 4], [.int 2]]
    (∀ row ∈ cells, row.length = ["length"].length)
      ∧ List.Forall₂ (fun row o =>
        gate.priceRowsWithin (.ofCells .any ["length"] [row]) (some defaultSeparator) defaultDepth
          defaultLevels = .ok [o])
        cells [.priced 50 [], .failed (.evaluation .divisionByZero)] := by
  intro gate cells
  have hwidth : ∀ row ∈ cells, row.length = ["length"].length := by
    simp [cells]
  obtain ⟨halone, -⟩ := priceRows_isolated gate .any ["length"] cells defaultSeparator defaultDepth
    defaultLevels hwidth (by decide)
  exact ⟨hwidth, (halone _).mp (by decide +kernel)⟩

/-! ## A box that costs too much -/

/-- What a checked box adds to the price is all there is to pay, up to a thousand. -/
def boxed (n : Nat) : Formula :=
  { Sample.priced "b" [Sample.box "b" (String.ofList (digits n)) "0"] with
    range := ⟨none, some 1000⟩ }

theorem filledIn_boxed (n : Nat) :
    ((boxed n).filledIn [("b", .bool true)]).text = '(' :: (digits n ++ [')']) := by
  have htokens : ((boxed n).coerced [("b", .bool true)]).contributions
      = [("b", .text (String.ofList (digits n)))] := rfl
  have hname : IsIdentifier "b" := by decide
  have hnames : ∀ e ∈ [("b", Contribution.text (String.ofList (digits n)))],
      IsIdentifier e.1 := List.forall_mem_singleton.mpr hname
  have hblank : Text.isBlankText (String.ofList (digits n)) = false := by
    rw [Text.isBlankText, String.toList_ofList, trim_digits]
    simpa using digits_ne_nil n
  have hfactor : (Contribution.text (String.ofList (digits n))).factor
      = '(' :: (digits n ++ [')']) := by
    rw [Contribution.factor_of_not_blank hblank, String.toList_ofList, trim_digits]
  have hdigits : zeroed (digits n) = digits n := by
    rw [← substitute_text_nil]
    exact substitute_number (by simp [Replacements.Names]) (isNumber_digits n)
  have hexpression : (boxed n).expression.toList = "b".toList := rfl
  rw [filledIn, htokens, hexpression, substitute_text,
    replaceTokens_word (names_replacements hnames).words hname.1, lookup_replacements]
  show zeroed (Contribution.text (String.ofList (digits n))).factor = _
  rw [hfactor, zeroed_gap (by decide) (by decide), zeroed_append _ (by decide), hdigits]
  rfl

theorem ofText_boxed (n : Nat) {limit : Nat} (hlimit : 0 < limit) :
    Tree.ofText ('(' :: (digits n ++ [')'])) limit = .ok (.group (.literal ⟨false, n, 0⟩)) := by
  rw [← literal_digits]
  refine ofText_of_spells (Spells.of_isNumber (isNumber_digits n)).parenthesized
    (.ofProduct (.ofFactor (.group (.ofProduct (.ofFactor (.number _)))))) ?_
  rw [literal_digits]
  exact hlimit

theorem roundedUnder_boxed {n : Nat} (h : digitCount n < 1000000) :
    (boxed n).roundedUnder [("b", .bool true)] defaultDepth = .ok (n : Int) := by
  have hvalue : (boxed n).valueUnder [("b", .bool true)] defaultDepth = .ok ⟨false, n, 0⟩ := by
    rw [valueUnder, filledIn_boxed, evaluateText, ofText_boxed n (by decide)]
    rfl
  rw [roundedUnder_of_value hvalue, toPrice_whole n h]

theorem rowFits_boxed (n : Nat) :
    (boxed n).RowFits defaultSeparator defaultDepth (defaultLevels - 1) [("b", .bool true)] := by
  intro answers hanswers
  obtain rfl : [("b", .bool true)] = answers := Except.ok.inj hanswers
  refine (textFits_iff (by decide)).mpr fun t ht => ?_
  rw [filledIn_boxed, ofText_boxed n (by decide)] at ht
  cases ht
  show 2 < defaultLevels - 1 - 1
  decide

/-- The row of the unchecked box has a price by itself, and has none beside that of a checked one.
-/
theorem priceRows_boxed :
    let f := boxed (10 ^ Json.maxIntegerDigits)
    f.priceRowsWithin (.ofCells .any ["b"] [[.bool false]]) (some defaultSeparator) defaultDepth
        defaultLevels = .ok [.priced 0 []]
      ∧ f.priceRowsWithin (.ofCells .any ["b"] [[.bool false], [.bool true]])
        (some defaultSeparator) defaultDepth defaultLevels = .error (.fault .longPrice) := by
  intro f
  have hdigits : digitCount (10 ^ Json.maxIntegerDigits) < 1000000 := by decide +kernel
  have hoverflows : f.Overflows defaultSeparator defaultDepth [("b", .bool true)] := by
    refine ⟨[("b", .bool true)], _, rfl, roundedUnder_boxed hdigits, Or.inl ?_⟩
    rw [Int.natAbs_natCast]
  have hreadable : f.isReadable 0 = true := rfl
  have hshort : ∀ e ∈ [("b", Value.bool true)], e.2.IsShort :=
    List.forall_mem_singleton.mpr fun _ h => by cases h
  have hfirst : f.priceRowsWithin (.ofCells .any ["b"] [[.bool false]]) (some defaultSeparator)
      defaultDepth defaultLevels = .ok [.priced 0 []] := by decide +kernel
  have hchecked : f.pricedRowWithin (some defaultSeparator) defaultDepth (defaultLevels - 1)
      [("b", .bool true)] = .error (.fault .longPrice) :=
    (pricedRowWithin_eq_error_iff hreadable hshort).mpr
      (.inr ⟨rfl, rowFits_boxed _, hoverflows⟩)
  refine ⟨hfirst, mapM_eq_error_iff.mpr ⟨[[.bool false]], [.bool true], [], rfl, ?_, hchecked⟩⟩
  rw [priceRowsWithin_singleton, map_eq_ok_iff] at hfirst
  obtain ⟨o, ho, -⟩ := hfirst
  exact List.forall_mem_singleton.mpr ⟨o, ho⟩

end Formula

end Tariff

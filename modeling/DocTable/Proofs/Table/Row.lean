import DocTable.Proofs.Steps
import DocTable.Proofs.Table.Cell
import DocTable.Table.Fill

/-!
# One row of a table

* `Table.Placed` — what placing the fields of a document does to the columns: one case for each
  thing that can happen to a column, and no word on how its place is found.
* `Table.RowOf` — the columns, read at one row, hold the fields of a document from left to right.
* `Placed.rowOf` — the row that is placed is the row of its document.
* `RowOf.placed` — the rows before it stay the rows of their documents, though columns are widened
  and others are put between them.
-/

set_option autoImplicit false

namespace DocTable

namespace Column

/-! ## A column that grows by one cell -/

/-- In this row the column holds the value of a field under the name of the field. -/
def Keeps (options : Options) (row : Nat) (column : Column) (field : String × Value) : Prop :=
  column.name = field.1 ∧
    ∃ cell, column.cells[row]? = some cell ∧
      (Cell.ofValue options field.2).StoredAs column.type cell

/-- In this row the column is missing. -/
def MissingAt (row : Nat) (column : Column) : Prop :=
  column.cells[row]? = some .missing

variable {options : Options} {row : Nat} {column wide : Column} {cell : Cell}
  {field : String × Value}

theorem widen_name (type : ColumnType) : (column.widen type).name = column.name := by
  unfold widen
  split <;> rfl

theorem widen_type (type : ColumnType) : (column.widen type).type = type := by
  unfold widen
  split
  · assumption
  · rfl

theorem widen_self (column : Column) : column.widen column.type = column := by
  unfold widen
  rw [if_pos rfl]

theorem widen_size (type : ColumnType) : (column.widen type).size = column.size := by
  unfold widen
  split
  · rfl
  · simp [size]

theorem widen_getElem? {cell kept : Cell} {type : ColumnType}
    (hcell : column.cells[row]? = some cell) (hkept : cell.convert? type = some kept)
    (hsame : column.type = type → kept = cell) : (column.widen type).cells[row]? = some kept := by
  unfold widen
  split
  · rename_i htype
    rw [hcell, hsame htype]
  · rw [Array.getElem?_map, hcell, Option.map_some, hkept, Option.getD_some]

/-- The column with one more cell; none if the cell is refused. -/
def insert? (column : Column) (cell : Cell) : Option Column :=
  match (column.insert cell).refused with
  | none => some (column.insert cell).column
  | some _ => none

theorem insert_of_convert? {kept : Cell}
    (h : cell.convert? (column.type.widened cell) = some kept) :
    column.insert cell = ⟨{ column.widen (column.type.widened cell) with
      cells := (column.widen (column.type.widened cell)).cells.push kept }, none⟩ := by
  simp only [insert, widen_type, h]

theorem insert_of_convert?_eq_none (h : cell.convert? (column.type.widened cell) = none) :
    column.insert cell = ⟨column.widen (column.type.widened cell), some cell⟩ := by
  simp only [insert, widen_type, h]

theorem insert?_of_convert? {kept : Cell}
    (h : cell.convert? (column.type.widened cell) = some kept) :
    column.insert? cell = some { column.widen (column.type.widened cell) with
      cells := (column.widen (column.type.widened cell)).cells.push kept } := by
  simp only [insert?, insert_of_convert? h]

/-- What storing a cell does to a column. -/
theorem insert?_eq_some (h : column.insert? cell = some wide) :
    ∃ kept, cell.convert? (column.type.widened cell) = some kept ∧
      wide = { column.widen (column.type.widened cell) with
        cells := (column.widen (column.type.widened cell)).cells.push kept } := by
  cases hkept : cell.convert? (column.type.widened cell) with
  | some kept =>
    rw [insert?_of_convert? hkept] at h
    exact ⟨kept, rfl, (Option.some.inj h).symm⟩
  | none =>
    rw [insert?, insert_of_convert?_eq_none hkept] at h
    cases h

theorem insert?_name (h : column.insert? cell = some wide) : wide.name = column.name := by
  obtain ⟨kept, -, rfl⟩ := insert?_eq_some h
  exact widen_name _

theorem insert?_size (h : column.insert? cell = some wide) : wide.size = column.size + 1 := by
  obtain ⟨kept, -, rfl⟩ := insert?_eq_some h
  simp only [size, Array.size_push]
  exact congrArg (· + 1) (widen_size _)

theorem insert?_type (h : column.insert? cell = some wide) :
    wide.type = column.type.widened cell := by
  obtain ⟨kept, -, rfl⟩ := insert?_eq_some h
  exact widen_type _

/-- The cell that is stored comes last. -/
theorem insert?_stored (h : column.insert? cell = some wide) :
    ∃ kept, cell.convert? wide.type = some kept ∧ wide.cells[column.size]? = some kept := by
  obtain ⟨kept, hkept, rfl⟩ := insert?_eq_some h
  refine ⟨kept, by rwa [widen_type], ?_⟩
  rw [← widen_size (column.type.widened cell)]
  exact Array.getElem?_push_size

theorem insert?_last (h : column.insert? cell = some wide) :
    ∃ kept, wide.cells[column.size]? = some kept ∧ cell.StoredAs wide.type kept := by
  obtain ⟨kept, hkept, hlast⟩ := insert?_stored h
  exact ⟨kept, hlast, .stored hkept⟩

theorem getElem?_push_of_some {cells : Array Cell} {cell : Cell} (last : Cell)
    (h : cells[row]? = some cell) : (cells.push last)[row]? = some cell := by
  obtain ⟨hlt, -⟩ := Array.getElem?_eq_some_iff.1 h
  rw [Array.getElem?_push, if_neg (by omega), h]

/-- The cells before it are converted if the type has changed. -/
theorem insert?_getElem? {other kept : Cell} (h : column.insert? other = some wide)
    (hcell : column.cells[row]? = some cell) (hkept : cell.convert? wide.type = some kept)
    (hsame : column.type = wide.type → kept = cell) : wide.cells[row]? = some kept := by
  rw [insert?_type h] at hkept hsame
  obtain ⟨last, -, rfl⟩ := insert?_eq_some h
  exact getElem?_push_of_some _ (widen_getElem? hcell hkept hsame)

/-- A cell that a column holds stays there, in the form that the column needs. -/
theorem Keeps.insert? {other : Cell} (hkeeps : column.Keeps options row field)
    (h : column.insert? other = some wide) : wide.Keeps options row field := by
  obtain ⟨hname, cell, hcell, hstored⟩ := hkeeps
  refine ⟨(insert?_name h).trans hname, ?_⟩
  obtain ⟨kept, hkept⟩ := Cell.convert?_widened other hstored.type_eq
  rw [← insert?_type h] at hkept
  refine ⟨kept, insert?_getElem? h hcell hkept fun htype => ?_, ?_⟩
  · rcases hstored.type_eq with rfl | hown
    · rw [Cell.convert?_missing] at hkept
      exact (Option.some.inj hkept).symm
    · rw [← htype, ← hown, Cell.convert?_type] at hkept
      exact (Option.some.inj hkept).symm
  · rw [insert?_type h] at hkept ⊢
    exact .widened other hstored hkept

theorem MissingAt.insert? {other : Cell} (hmissing : column.MissingAt row)
    (h : column.insert? other = some wide) : wide.MissingAt row :=
  insert?_getElem? h hmissing (Cell.convert?_missing _) fun _ => rfl

theorem Keeps.insertMissing (h : column.Keeps options row field) :
    column.insertMissing.Keeps options row field := by
  obtain ⟨hname, cell, hcell, hstored⟩ := h
  exact ⟨hname, cell, getElem?_push_of_some _ hcell, hstored⟩

theorem MissingAt.insertMissing (h : column.MissingAt row) : column.insertMissing.MissingAt row :=
  getElem?_push_of_some _ h

/-- A missing cell asks for no type. -/
theorem insert?_missing (column : Column) : column.insert? .missing = some column.insertMissing := by
  rw [insert?_of_convert? (Cell.convert?_missing _), ColumnType.widened_missing, widen_self]
  rfl

theorem insertMissing_last : column.insertMissing.MissingAt column.size :=
  Array.getElem?_push_size

theorem insertMissing_size : column.insertMissing.size = column.size + 1 := by
  simp [insertMissing, size]

@[simp] theorem startAt_size (rows : Nat) (name : String) (cell : Cell) :
    (startAt rows name cell).size = rows := by
  simp [startAt, size]

theorem startAt_missing {rows : Nat} (name : String) (cell : Cell) (h : row < rows) :
    (startAt rows name cell).MissingAt row := by
  simp [startAt, MissingAt, h]

end Column

namespace Table

open Column

variable {options : Options} {row : Nat}

/-! ## Placing a document -/

/-- What placing fields in row `row` makes of the columns. -/
inductive Placed (options : Options) (row : Nat) :
    List Column → List (String × Value) → List Column → Prop
  | nil : Placed options row [] [] []
  | skip {columns placed : List Column} {fields : List (String × Value)} (column : Column) :
      Placed options row columns fields placed →
      Placed options row (column :: columns) fields (column.insertMissing :: placed)
  | store {columns placed : List Column} {fields : List (String × Value)} {column wide : Column}
      {name : String} {value : Value} : column.name = name →
      column.insert? (Cell.ofValue options value) = some wide →
      Placed options row columns fields placed →
      Placed options row (column :: columns) ((name, value) :: fields) (wide :: placed)
  | start {columns placed : List Column} {fields : List (String × Value)} {wide : Column}
      {name : String} {value : Value} :
      (startAt row name (Cell.ofValue options value)).insert? (Cell.ofValue options value) =
        some wide →
      Placed options row columns fields placed →
      Placed options row columns ((name, value) :: fields) (wide :: placed)

theorem Placed.skipAll (columns : List Column) :
    Placed options row columns [] (columns.map insertMissing) := by
  induction columns with
  | nil => exact .nil
  | cons column columns ih => exact .skip column ih

theorem Placed.skip_append {columns placed : List Column} {fields : List (String × Value)}
    (before : List Column) (h : Placed options row columns fields placed) :
    Placed options row (before ++ columns) fields (before.map insertMissing ++ placed) := by
  induction before with
  | nil => exact h
  | cons column before ih => exact .skip column ih

theorem splitAtName?_eq_some {name : String} {columns before after : List Column}
    {found : Column} (h : splitAtName? name columns = some (before, found, after)) :
    columns = before ++ found :: after ∧ found.name = name := by
  induction columns generalizing before with
  | nil => cases h
  | cons column columns ih =>
    rw [splitAtName?] at h
    split at h
    · rename_i hname
      cases h
      exact ⟨rfl, hname⟩
    · obtain ⟨⟨before', found', after'⟩, hrest, h⟩ := Option.map_eq_some_iff.1 h
      cases h
      obtain ⟨rfl, hname⟩ := ih hrest
      exact ⟨rfl, hname⟩

theorem store_eq_ok {column wide : Column} {value : Value} :
    store options row column value = .ok wide ↔
      column.insert? (Cell.ofValue options value) = some wide := by
  simp only [store, insert?]
  cases (column.insert (Cell.ofValue options value)).refused with
  | none => rw [Except.ok.injEq, Option.some.injEq]
  | some cell => simp only [reduceCtorEq]

theorem startColumn_eq_ok {column : Column} {warnings : List Warning} {name : String}
    {value : Value} (h : startColumn options row name value = .ok (column, warnings)) :
    (startAt row name (Cell.ofValue options value)).insert? (Cell.ofValue options value) =
      some column := by
  obtain ⟨found, hfound, h⟩ := Steps.bind_eq_ok.1 h
  cases h
  exact store_eq_ok.1 hfound

/-- Whatever `place` does is a placement. -/
theorem placed_of_place {fields : List (String × Value)} {columns placed : List Column}
    {warnings : List Warning} (h : place options row columns fields = .ok (placed, warnings)) :
    Placed options row columns fields placed := by
  induction fields generalizing columns placed warnings with
  | nil =>
    cases h
    exact .skipAll columns
  | cons field fields ih =>
    obtain ⟨name, value⟩ := field
    rw [place] at h
    split at h
    · rename_i before found after hsplit
      obtain ⟨rfl, hname⟩ := splitAtName?_eq_some hsplit
      obtain ⟨wide, hwide, h⟩ := Steps.bind_eq_ok.1 h
      obtain ⟨⟨rest, more⟩, hrest, h⟩ := Steps.bind_eq_ok.1 h
      cases h
      exact .skip_append before (.store hname (store_eq_ok.1 hwide) (ih hrest))
    · obtain ⟨⟨wide, started⟩, hwide, h⟩ := Steps.bind_eq_ok.1 h
      obtain ⟨⟨rest, more⟩, hrest, h⟩ := Steps.bind_eq_ok.1 h
      cases h
      exact .start (startColumn_eq_ok hwide) (ih hrest)

/-! ## The row of a document -/

/-- Row `row` of the columns holds the fields of a document in order; the other columns are missing
there. -/
inductive RowOf (options : Options) (row : Nat) : List Column → List (String × Value) → Prop
  | nil : RowOf options row [] []
  | skip {column : Column} {columns : List Column} {fields : List (String × Value)} :
      column.MissingAt row → RowOf options row columns fields →
      RowOf options row (column :: columns) fields
  | hit {column : Column} {columns : List Column} {field : String × Value}
      {fields : List (String × Value)} :
      column.Keeps options row field → RowOf options row columns fields →
      RowOf options row (column :: columns) (field :: fields)

/-- Every column has a cell for each of so many rows. -/
def AllOfSize (rows : Nat) (columns : List Column) : Prop :=
  ∀ column ∈ columns, column.size = rows

variable {columns result : List Column} {fields : List (String × Value)}

theorem Placed.allOfSize (h : Placed options row columns fields result)
    (hsize : AllOfSize row columns) : AllOfSize (row + 1) result := by
  induction h with
  | nil => exact nofun
  | skip column _ ih =>
    obtain ⟨hcolumn, hcolumns⟩ := List.forall_mem_cons.1 hsize
    exact List.forall_mem_cons.2 ⟨insertMissing_size.trans (by rw [hcolumn]), ih hcolumns⟩
  | store _ hwide _ ih =>
    obtain ⟨hcolumn, hcolumns⟩ := List.forall_mem_cons.1 hsize
    exact List.forall_mem_cons.2 ⟨(insert?_size hwide).trans (by rw [hcolumn]), ih hcolumns⟩
  | start hwide _ ih =>
    exact List.forall_mem_cons.2 ⟨(insert?_size hwide).trans (by rw [startAt_size]), ih hsize⟩

theorem keeps_of_insert? {column wide : Column} {value : Value}
    (h : column.insert? (Cell.ofValue options value) = some wide) :
    wide.Keeps options column.size (column.name, value) :=
  ⟨insert?_name h, insert?_last h⟩

/-- **The new row** is the row of the document that was placed. -/
theorem Placed.rowOf (h : Placed options row columns fields result)
    (hsize : AllOfSize row columns) : RowOf options row result fields := by
  induction h with
  | nil => exact .nil
  | skip column _ ih =>
    obtain ⟨hcolumn, hcolumns⟩ := List.forall_mem_cons.1 hsize
    exact .skip (hcolumn ▸ insertMissing_last) (ih hcolumns)
  | store hname hwide _ ih =>
    obtain ⟨hcolumn, hcolumns⟩ := List.forall_mem_cons.1 hsize
    refine .hit ?_ (ih hcolumns)
    rw [← hcolumn, ← hname]
    exact keeps_of_insert? hwide
  | @start _ _ _ _ name value hwide _ ih =>
    refine .hit ?_ (ih hsize)
    have hkeeps := keeps_of_insert? hwide
    rwa [startAt_size] at hkeeps

/-- **The earlier rows** are not disturbed by a placement. -/
theorem RowOf.placed {earlier : Nat} {old : List (String × Value)}
    (hrow : RowOf options earlier columns old) (h : Placed options row columns fields result)
    (hlt : earlier < row) : RowOf options earlier result old := by
  induction h generalizing old with
  | nil => exact hrow
  | skip column _ ih =>
    cases hrow with
    | skip hmissing hrow => exact .skip hmissing.insertMissing (ih hrow)
    | hit hkeeps hrow => exact .hit hkeeps.insertMissing (ih hrow)
  | store _ hwide _ ih =>
    cases hrow with
    | skip hmissing hrow => exact .skip (hmissing.insert? hwide) (ih hrow)
    | hit hkeeps hrow => exact .hit (hkeeps.insert? hwide) (ih hrow)
  | start hwide _ ih => exact .skip ((startAt_missing _ _ hlt).insert? hwide) (ih hrow)

end Table

end DocTable

import DocTable.Proofs.Steps
import DocTable.Proofs.Table.Steady
import DocTable.Report.Basic

/-!
# Files of columns are written whole or not at all

* `Table.SameSchema` — the same names in the same order over types that are stored alike, which is
  when two tables are stored with the same schema.
* `IsPage.batch_fits` — the rows of a page fit the schema that they are stored with.
* `ColumnFile.same_or_first_differs` — of any pages either all share a schema with the first, or
  there is a first that does not; `ofPages` tells which.
* `ColumnFile.Library`, `Library.Lawful` — what makes files of columns, and what is relied on.
* `Library.writePages_append`, `Library.writePages_of_differs` — the loop over pages of the schema, and
  where it ends.
* `stored_whole_or_not` — pages are stored if and only if they share a schema; then the file holds
  all their cells, and else nothing was handed over and the first page at odds is named.
-/

set_option autoImplicit false

namespace DocTable

/-! ## Schemas -/

/-- Types that are stored alike: values that are kept whole are stored as text. -/
def ColumnType.Alike (type other : ColumnType) : Prop :=
  type = other ∨ type ∈ [string, list] ∧ other ∈ [string, list]

theorem ColumnType.stored_eq_iff {type other : ColumnType} :
    type.stored = other.stored ↔ type.Alike other := by
  cases type <;> cases other <;> simp [stored, Alike]

/-- The same names in the same order over types that are stored alike. -/
def Table.SameSchema (table other : Table) : Prop :=
  List.Forall₂ (fun column column' => column.name = column'.name ∧ column.type.Alike column'.type)
    table.columns other.columns

theorem Table.batch_schema_eq_iff {table other : Table} :
    table.batch.schema = other.batch.schema ↔ table.SameSchema other := by
  unfold batch SameSchema
  rw [← List.forall₂_eq_eq_eq, List.forall₂_map_left_iff, List.forall₂_map_right_iff]
  simp only [Prod.mk.injEq, ColumnType.stored_eq_iff]

/-! ## Rows that fit their schema -/

/-- Whether a cell can stand in a stored column of a type. -/
def StoredType.admits : StoredType → Cell → Bool
  | _, .missing => true
  | .boolean, .bool _ => true
  | .int32, .int32 _ => true
  | .float64, .double _ => true
  | .utf8, .string _ => true
  | .timestamp, .dateTime _ => true
  | _, _ => false

/-- Every column has a cell of its type for every row. -/
structure Batch.Fits (batch : Batch) : Prop where
  columns_length : batch.columns.length = batch.schema.length
  cells : ∀ column ∈ batch.schema.zip batch.columns,
    column.2.length = batch.rowCount ∧ ∀ cell ∈ column.2, column.1.2.admits cell

instance (batch : Batch) : Decidable batch.Fits :=
  decidable_of_iff
    (batch.columns.length = batch.schema.length ∧ ∀ column ∈ batch.schema.zip batch.columns,
      column.2.length = batch.rowCount ∧ ∀ cell ∈ column.2, column.1.2.admits cell)
    ⟨fun h => ⟨h.1, h.2⟩, fun h => ⟨h.1, h.2⟩⟩

/-- What a file holds for a cell: nothing where it is missing, JSON text for a value that is kept
whole, and else the cell. -/
def Cell.inFile : Cell → Cell
  | missing => missing
  | list v => string v.toJson.compact
  | cell => cell

theorem Cell.stored_eq_inFile (cell : Cell) : cell.stored = cell.inFile := by
  cases cell <;> rfl

theorem Cell.admits_stored {type : ColumnType} {cell : Cell} (h : cell.Fits type) :
    type.stored.admits cell.stored = true := by
  rcases h with rfl | rfl
  · cases type <;> rfl
  · cases cell <;> rfl

namespace Table

variable {options : Options} {table : Table} {docs : List Document}

theorem RowOf.fits {row : Nat} {columns : List Column} {fields : List (String × Value)}
    (h : RowOf options row columns fields) :
    ∀ column ∈ columns, ∃ cell, column.cells[row]? = some cell ∧ cell.Fits column.type := by
  induction h with
  | nil => exact nofun
  | skip hmissing _ ih => exact List.forall_mem_cons.2 ⟨⟨.missing, hmissing, .inl rfl⟩, ih⟩
  | hit hkeeps _ ih =>
    obtain ⟨-, cell, hcell, hstored⟩ := hkeeps
    exact List.forall_mem_cons.2 ⟨⟨cell, hcell, hstored.type_eq⟩, ih⟩

/-- Every cell of a column is missing or of its type. -/
theorem IsTableOf.fits (h : table.IsTableOf options docs) {column : Column}
    (hcolumn : column ∈ table.columns) : ∀ cell ∈ column.cells, cell.Fits column.type := by
  intro cell hcell
  obtain ⟨row, hrow, rfl⟩ := Array.mem_iff_getElem.1 hcell
  have hdoc : row < docs.length := by
    rw [← h.rowCount_eq, ← h.allOfSize column hcolumn]
    exact hrow
  obtain ⟨found, hfound, hfits⟩ :=
    (h.rowOf row _ (List.getElem?_eq_getElem hdoc)).fits column hcolumn
  rw [Array.getElem?_eq_getElem hrow, Option.some.injEq] at hfound
  rwa [hfound]

/-- **The rows of a page** fit the schema that they are stored with. -/
theorem IsPage.batch_fits (h : table.IsPage) : table.batch.Fits := by
  obtain ⟨options, docs, hdocs⟩ := h.exists_docs
  refine ⟨by simp [batch], ?_⟩
  unfold batch
  rw [List.zip_map']
  intro column hmem
  obtain ⟨column, hcolumn, rfl⟩ := List.mem_map.1 hmem
  refine ⟨?_, fun cell hcell => ?_⟩
  · rw [List.length_map, Array.length_toList]
    exact hdocs.allOfSize column hcolumn
  · obtain ⟨original, horiginal, rfl⟩ := List.mem_map.1 hcell
    exact Cell.admits_stored (hdocs.fits hcolumn original (Array.mem_toList_iff.1 horiginal))

/-- A page with columns has rows, as only a document can start a column. -/
theorem IsPage.rowCount_pos (h : table.IsPage) (hcolumns : table.columns ≠ []) :
    0 < table.rowCount := by
  obtain ⟨options, source, maxRows, htable⟩ := h
  obtain ⟨docs, -, hrun⟩ := Source.foldlM_of_flatten htable
  cases docs with
  | nil =>
    cases hrun
    exact absurd rfl hcolumns
  | cons doc docs =>
    rw [(isTableOf_of_foldlM hrun).rowCount_eq]
    exact Nat.succ_pos _

end Table

namespace ColumnFile

/-! ## Pages that share a schema -/

/-- The pages have one schema, and there is one. -/
def OneSchema (pages : List Table) : Prop :=
  ∃ first, pages.head? = some first ∧ ∀ table ∈ pages, first.SameSchema table

/-- The first page at odds with the schema of the first page is the one of this number, counted
from 1. -/
def FirstDiffers (pages : List Table) (number : Nat) : Prop :=
  ∃ first before table behind, pages.head? = some first ∧ pages = before ++ table :: behind ∧
    number = before.length + 1 ∧ (∀ other ∈ before, first.SameSchema other) ∧
    ¬ first.SameSchema table

/-- Of any pages either all are stored with a schema or there is a first that is not. -/
theorem same_or_first_differs {schema : List (String × StoredType)} (tables : List Table) :
    (∀ table ∈ tables, table.batch.schema = schema) ∨
      ∃ before table behind, tables = before ++ table :: behind ∧
        (∀ other ∈ before, other.batch.schema = schema) ∧ table.batch.schema ≠ schema := by
  cases hfind : tables.find? (·.batch.schema ≠ schema) with
  | none => exact .inl (by simpa using hfind)
  | some table =>
    obtain ⟨hdiffers, before, behind, rfl, hbefore⟩ := List.find?_eq_some_iff_append.1 hfind
    exact .inr ⟨before, table, behind, rfl, by simpa using hbefore, by simpa using hdiffers⟩

variable {schema : List (String × StoredType)} {tables before behind : List Table} {table : Table}

theorem groupsOf_of_same (h : ∀ table ∈ tables, table.batch.schema = schema) (page : Nat) :
    groupsOf schema page tables = .ok (tables.map Table.batch) := by
  induction tables generalizing page with
  | nil => rfl
  | cons table tables ih =>
    obtain ⟨htable, htables⟩ := List.forall_mem_cons.1 h
    simp only [groupsOf, htable, if_true, ih htables, Steps.ok_bind, List.map_cons]

theorem groupsOf_of_differs (h : ∀ other ∈ before, other.batch.schema = schema)
    (htable : table.batch.schema ≠ schema) (page : Nat) :
    groupsOf schema page (before ++ table :: behind) =
      .error (.schemaDiffers (page + before.length)) := by
  induction before generalizing page with
  | nil => simp only [List.nil_append, groupsOf, htable, if_false, List.length_nil, Nat.add_zero]
  | cons other before ih =>
    obtain ⟨hother, hbefore⟩ := List.forall_mem_cons.1 h
    simp only [List.cons_append, groupsOf, hother, if_true, ih hbefore, Steps.error_bind,
      List.length_cons, Nat.add_assoc, Nat.add_comm 1]

/-! ## What makes a file -/

/-- What makes files of columns out of groups of rows. A writer keeps what it is given until it is
closed. -/
structure Library where
  /-- What can go wrong. -/
  Trouble : Type
  Writer : Type
  /-- The bytes of a file. -/
  File : Type
  /-- Makes a group of rows of a schema, a number of rows and columns. -/
  batch : List (String × StoredType) → Nat → List (List Cell) → Except Trouble Batch
  create : List (String × StoredType) → Except Trouble Writer
  write : Writer → Batch → Except Trouble Writer
  /-- Ends the group of rows. -/
  flush : Writer → Except Trouble Writer
  close : Writer → Except Trouble File
  /-- Reads the schema of a file and the cells of each of its columns. -/
  read : File → Option (List (String × StoredType) × List (List Cell))

namespace Library

/-- Why pages are not stored. -/
inductive Failure (Trouble : Type) where
  | refused (fault : Fault)
  | trouble (context : String) (trouble : Trouble)
  deriving DecidableEq, Repr

variable (lib : Library)

/-- The rows of a table as the library takes them. -/
def convert (table : Table) : Except lib.Trouble Batch :=
  lib.batch (table.columns.map fun c => (c.name, c.type.stored)) table.rowCount
    (table.columns.map fun c => c.cells.toList.map Cell.stored)

/-- Writes rows as a group of their own. -/
def writeGroup (writer : lib.Writer) (batch : Batch) : Except lib.Trouble lib.Writer := do
  let writer ← lib.write writer batch
  lib.flush writer

/-- Writes the pages from number `page` on. -/
def writePages (schema : List (String × StoredType)) :
    (page : Nat) → lib.Writer → List Table → Except (Failure lib.Trouble) lib.Writer
  | _, writer, [] => .ok writer
  | page, writer, table :: tables => do
    let batch ← (lib.convert table).mapError
      (.trouble ("Failed to convert page " ++ natText page ++ " to Arrow"))
    if batch.schema = schema then
      let writer ← (lib.writeGroup writer batch).mapError
        (.trouble "Failed to write Parquet row group")
      writePages schema (page + 1) writer tables
    else .error (.refused (.schemaDiffers page))

/-- The bytes of the file of some pages. -/
def pack : List Table → Except (Failure lib.Trouble) lib.File
  | [] => .error (.refused .noPages)
  | table :: tables => do
    let schema := table.batch.schema
    let writer ← (lib.create schema).mapError (.trouble "Failed to create Parquet writer")
    let writer ← lib.writePages schema 1 writer (table :: tables)
    (lib.close writer).mapError (.trouble "Failed to finish Parquet file")

/-- Stores pages behind what was handed over before. A file is handed over when it is complete. -/
def send (tables : List Table) (received : List lib.File) :
    Except (Failure lib.Trouble) Unit × List lib.File :=
  match lib.pack tables with
  | .ok file => (.ok (), received ++ [file])
  | .error failure => (.error failure, received)

/-- What is relied on. -/
structure Lawful : Prop where
  /-- Columns of the declared types and number of rows are taken. -/
  batch_eq : ∀ batch : Batch, batch.Fits →
    lib.batch batch.schema batch.rowCount batch.columns = .ok batch
  /-- Groups of rows of one schema are written, and the file has their cells. -/
  read_written : ∀ (schema : List (String × StoredType)) (groups : List Batch), schema ≠ [] →
    (∀ batch ∈ groups, batch.schema = schema ∧ batch.Fits ∧ 0 < batch.rowCount) →
    ∃ writer written file, lib.create schema = .ok writer ∧
      groups.foldlM lib.writeGroup writer = .ok written ∧ lib.close written = .ok file ∧
      lib.read file = some (schema, ColumnFile.columns ⟨schema, groups⟩)

variable {lib}

/-- The rows of a page are always taken. -/
theorem convert_of_isPage (hlib : lib.Lawful) (h : table.IsPage) :
    lib.convert table = .ok table.batch :=
  hlib.batch_eq table.batch h.batch_fits

/-! ## The loop over the pages -/

/-- **The loop over pages of the schema** writes them, and goes on with those behind them. -/
theorem writePages_append (hlib : lib.Lawful)
    (h : ∀ other ∈ before, other.IsPage ∧ other.batch.schema = schema) (page : Nat)
    {writer written : lib.Writer}
    (hwritten : (before.map Table.batch).foldlM lib.writeGroup writer = .ok written)
    (rest : List Table) :
    lib.writePages schema page writer (before ++ rest) =
      lib.writePages schema (page + before.length) written rest := by
  induction before generalizing page writer with
  | nil =>
    cases hwritten
    rfl
  | cons other before ih =>
    obtain ⟨⟨hother, hschema⟩, hbefore⟩ := List.forall_mem_cons.1 h
    rw [List.map_cons, List.foldlM_cons] at hwritten
    obtain ⟨next, hnext, hrest⟩ := Steps.bind_eq_ok.1 hwritten
    rw [List.cons_append, writePages]
    simp only [convert_of_isPage hlib hother, Except.mapError, Steps.ok_bind, hschema, if_true,
      hnext]
    rw [ih hbefore (page + 1) hrest, List.length_cons, Nat.add_assoc, Nat.add_comm 1]

/-- A page of another schema ends the loop. -/
theorem writePages_of_differs (hlib : lib.Lawful) (hpage : table.IsPage)
    (htable : table.batch.schema ≠ schema) (page : Nat) (writer : lib.Writer) :
    lib.writePages schema page writer (table :: behind) =
      .error (.refused (.schemaDiffers page)) := by
  rw [writePages]
  simp only [convert_of_isPage hlib hpage, Except.mapError, Steps.ok_bind, htable, if_false]

end Library

/-! ## What becomes of pages -/

variable {first : Table} {lib : Library}

/-- The cells of a column of a page, as a file holds them. -/
def cellsInFile (i : Nat) (table : Table) : List Cell :=
  match table.columns[i]? with
  | some column => column.cells.toList.map Cell.inFile
  | none => []

/-- The file has the schema of the first page and, column by column, the cells of all pages. -/
def HoldsPages (pages : List Table) (file : ColumnFile) : Prop :=
  ∃ first, pages.head? = some first ∧
    file.schema = first.columns.map (fun column => (column.name, column.type.stored)) ∧
    file.columns = (List.range first.columns.length).map fun i => pages.flatMap (cellsInFile i)

theorem batch_columns_getD (table : Table) (i : Nat) :
    table.batch.columns.getD i [] = cellsInFile i table := by
  unfold Table.batch cellsInFile
  rw [List.getD_eq_getElem?_getD, List.getElem?_map]
  cases table.columns[i]? with
  | none => rfl
  | some column => simp [Cell.stored_eq_inFile]

theorem holdsPages_of_batches :
    HoldsPages (first :: tables) ⟨first.batch.schema, (first :: tables).map Table.batch⟩ := by
  refine ⟨first, rfl, rfl, ?_⟩
  simp only [columns, List.flatMap_map, batch_columns_getD]
  simp [Table.batch]

/-- Pages of one schema are written, and the file has their cells. -/
theorem Library.Lawful.read_pages (hlib : lib.Lawful) (hschema : schema ≠ [])
    (h : ∀ table ∈ tables,
      (table.IsPage ∧ table.columns ≠ []) ∧ table.batch.schema = schema) :
    ∃ writer written file, lib.create schema = .ok writer ∧
      (tables.map Table.batch).foldlM lib.writeGroup writer = .ok written ∧
      lib.close written = .ok file ∧
      lib.read file = some (schema, columns ⟨schema, tables.map Table.batch⟩) := by
  apply hlib.read_written schema _ hschema
  intro batch hbatch
  obtain ⟨table, htable, rfl⟩ := List.mem_map.1 hbatch
  obtain ⟨⟨hpage, hcolumns⟩, hsame⟩ := h table htable
  exact ⟨hsame, hpage.batch_fits, hpage.rowCount_pos hcolumns⟩

theorem batch_schema_ne_nil (h : table.columns ≠ []) : table.batch.schema ≠ [] := by
  simpa [Table.batch] using h

/-- **Pages of one schema** are stored, group after group. -/
theorem stored_of_same (hlib : lib.Lawful)
    (hpages : ∀ table ∈ first :: tables, table.IsPage ∧ table.columns ≠ [])
    (hsame : ∀ table ∈ first :: tables, table.batch.schema = first.batch.schema) :
    ∃ file, ofPages (first :: tables) = .ok file ∧ HoldsPages (first :: tables) file ∧
      ∃ written, lib.pack (first :: tables) = .ok written ∧
        lib.read written = some (file.schema, file.columns) := by
  obtain ⟨writer, closing, written, hcreate, hwrite, hclose, hread⟩ :=
    hlib.read_pages (batch_schema_ne_nil (hpages first List.mem_cons_self).2)
      fun table htable => ⟨hpages table htable, hsame table htable⟩
  refine ⟨_, ?_, holdsPages_of_batches, written, ?_, hread⟩
  · rw [ofPages, groupsOf_of_same hsame, Steps.ok_bind]
  · have hloop := Library.writePages_append hlib
      (fun table htable => ⟨(hpages table htable).1, hsame table htable⟩) 1 hwrite []
    rw [List.append_nil, Library.writePages] at hloop
    rw [Library.pack]
    simp only [hcreate, Except.mapError, Steps.ok_bind, hloop, hclose]

/-- **A page at odds** with the first is where the loop ends, whatever was written before. -/
theorem refused_of_differs (hlib : lib.Lawful)
    (hpages : ∀ table ∈ first :: tables, table.IsPage ∧ table.columns ≠ [])
    (htables : first :: tables = before ++ table :: behind)
    (hsame : ∀ other ∈ before, other.batch.schema = first.batch.schema)
    (hdiffers : table.batch.schema ≠ first.batch.schema) :
    ofPages (first :: tables) = .error (.schemaDiffers (before.length + 1)) ∧
      lib.pack (first :: tables) = .error (.refused (.schemaDiffers (before.length + 1))) := by
  have hbefore : ∀ other ∈ before, other.IsPage ∧ other.columns ≠ [] := fun other hother =>
    hpages other (by rw [htables]; exact List.mem_append_left _ hother)
  have htable : table.IsPage := (hpages table (by rw [htables]; simp)).1
  obtain ⟨writer, written, -, hcreate, hwrite, -⟩ :=
    hlib.read_pages (batch_schema_ne_nil (hpages first List.mem_cons_self).2)
      fun other hother => ⟨hbefore other hother, hsame other hother⟩
  constructor
  · rw [ofPages, htables, groupsOf_of_differs hsame hdiffers, Steps.error_bind, Nat.add_comm]
  · rw [Library.pack]
    simp only [hcreate, Except.mapError, Steps.ok_bind]
    rw [htables, Library.writePages_append hlib
      (fun other hother => ⟨(hbefore other hother).1, hsame other hother⟩) 1 hwrite,
      Library.writePages_of_differs hlib htable hdiffers, Steps.error_bind, Nat.add_comm]

/-- Pages with columns have one schema and are stored, or else they are refused for a reason. -/
theorem outcome_of_pages (hlib : lib.Lawful) (pages : List Table)
    (hpages : ∀ table ∈ pages, table.IsPage ∧ table.columns ≠ []) :
    (OneSchema pages ∧ ∃ file, ofPages pages = .ok file ∧ HoldsPages pages file ∧
      ∃ written, lib.pack pages = .ok written ∧
        lib.read written = some (file.schema, file.columns)) ∨
    (¬ OneSchema pages ∧ ∃ fault, ofPages pages = .error fault ∧
      lib.pack pages = .error (.refused fault) ∧
      (pages = [] ∧ fault = .noPages ∨
        ∃ number, FirstDiffers pages number ∧ fault = .schemaDiffers number)) := by
  cases pages with
  | nil =>
    refine .inr ⟨?_, _, rfl, rfl, .inl ⟨rfl, rfl⟩⟩
    rintro ⟨first, hfirst, -⟩
    cases hfirst
  | cons first tables =>
    rcases same_or_first_differs (first :: tables) with hsame | hdiffers
    · have hschemas : ∀ table ∈ first :: tables, first.SameSchema table := fun table htable =>
        Table.batch_schema_eq_iff.1 (hsame table htable).symm
      exact .inl ⟨⟨first, rfl, hschemas⟩, stored_of_same hlib hpages hsame⟩
    · obtain ⟨before, table, behind, htables, hbefore, htable⟩ := hdiffers
      obtain ⟨hrefused, hpack⟩ := refused_of_differs hlib hpages htables hbefore htable
      have hodds : ¬ first.SameSchema table := fun hsame =>
        htable (Table.batch_schema_eq_iff.2 hsame).symm
      have hschemas : ∀ other ∈ before, first.SameSchema other := fun other hother =>
        Table.batch_schema_eq_iff.1 (hbefore other hother).symm
      refine .inr ⟨?_, _, hrefused, hpack, .inr ⟨_, ⟨first, before, table, behind, rfl, htables,
        rfl, hschemas, hodds⟩, rfl⟩⟩
      rintro ⟨head, hhead, hall⟩
      cases hhead
      exact hodds (hall table (by rw [htables]; simp))

/-- **Stored whole or not at all.**  The rows of a page are always taken by a library that can be
relied on, and the pages of some inputs, each with a column, are stored if and only if there is one
and all are stored with the schema of the first. Then one file is handed over, with all cells of all
pages in it. Else nothing is, and the error says that there is no page or tells the number of the
first page at odds, counted through all inputs. -/
theorem stored_whole_or_not (hlib : lib.Lawful) :
    (∀ table : Table, table.IsPage → lib.convert table = .ok table.batch) ∧
    ∀ inputs : List Labelled,
      (∀ input ∈ inputs, ∀ table ∈ input.2, table.IsPage ∧ table.columns ≠ []) →
      ((∃ report, Style.parquet.inputs inputs = .ok report) ↔ OneSchema (inputs.flatMap (·.2))) ∧
      (∀ report, Style.parquet.inputs inputs = .ok report →
        ∃ file, report = .columns file ∧ HoldsPages (inputs.flatMap (·.2)) file ∧
          ∃ written, lib.read written = some (file.schema, file.columns) ∧
            ∀ received, lib.send (inputs.flatMap (·.2)) received =
              (.ok (), received ++ [written])) ∧
      ∀ fault, Style.parquet.inputs inputs = .error fault →
        (inputs.flatMap (·.2) = [] ∧ fault = .noPages ∨
          ∃ number, FirstDiffers (inputs.flatMap (·.2)) number ∧ fault = .schemaDiffers number ∧
            fault.message = "Page " ++ natText number ++ " has a different schema than page 1; "
              ++ "Parquet output needs a single schema (try a larger --page-size)") ∧
        ∀ received, lib.send (inputs.flatMap (·.2)) received =
          (.error (.refused fault), received) := by
  refine ⟨fun table => Library.convert_of_isPage hlib, fun inputs h => ?_⟩
  have hpages : ∀ table ∈ inputs.flatMap (·.2), table.IsPage ∧ table.columns ≠ [] := by
    intro table htable
    obtain ⟨input, hinput, htable⟩ := List.mem_flatMap.1 htable
    exact h input hinput table htable
  rcases outcome_of_pages hlib _ hpages with
    ⟨hone, file, hfile, hholds, written, hpack, hread⟩ | ⟨hnot, fault, hfault, hpack, hwhy⟩
  · have hinputs : Style.parquet.inputs inputs = .ok (.columns file) := by
      rw [Style.inputs, hfile]
      rfl
    rw [hinputs]
    refine ⟨⟨fun _ => hone, fun _ => ⟨_, rfl⟩⟩, ?_, nofun⟩
    rintro report ⟨⟩
    exact ⟨file, rfl, hholds, written, hread, fun received => by rw [Library.send, hpack]⟩
  · have hinputs : Style.parquet.inputs inputs = .error fault := by
      rw [Style.inputs, hfault]
      rfl
    rw [hinputs]
    refine ⟨⟨?_, fun hone => absurd hone hnot⟩, nofun, ?_⟩
    · rintro ⟨report, ⟨⟩⟩
    · rintro fault ⟨⟩
      refine ⟨hwhy.imp_right ?_, fun received => by rw [Library.send, hpack]⟩
      rintro ⟨number, hnumber, rfl⟩
      exact ⟨number, hnumber, rfl, rfl⟩

/-! ## A library that keeps what it is given -/

/-- The file with one more group of rows, which must have its schema. -/
def addGroup (file : ColumnFile) (batch : Batch) : Except String ColumnFile :=
  if batch.schema = file.schema then .ok { file with groups := file.groups ++ [batch] }
  else .error "record batch schema does not match writer schema"

/-- Files are kept as they are, and what is asked for is checked. -/
def Library.plain : Library where
  Trouble := String
  Writer := ColumnFile
  File := ColumnFile
  batch schema rowCount columns :=
    if Batch.Fits ⟨schema, rowCount, columns⟩ then .ok ⟨schema, rowCount, columns⟩
    else .error "columns must match schema and row count"
  create schema := .ok ⟨schema, []⟩
  write := addGroup
  flush := .ok
  close := .ok
  read file := some (file.schema, file.columns)

theorem foldlM_addGroup {groups : List Batch} (h : ∀ batch ∈ groups, batch.schema = schema)
    (written : List Batch) :
    groups.foldlM addGroup ⟨schema, written⟩ = .ok ⟨schema, written ++ groups⟩ := by
  induction groups generalizing written with
  | nil =>
    rw [List.append_nil]
    rfl
  | cons batch groups ih =>
    obtain ⟨hbatch, hgroups⟩ := List.forall_mem_cons.1 h
    rw [List.foldlM_cons, addGroup, if_pos hbatch, Steps.ok_bind, ih hgroups, List.append_assoc,
      List.singleton_append]

theorem Library.plain_writeGroup : Library.plain.writeGroup = addGroup := by
  funext file batch
  exact bind_pure (addGroup file batch)

theorem Library.plain_lawful : Library.plain.Lawful where
  batch_eq _ hfits := if_pos hfits
  read_written schema groups _ hgroups := by
    refine ⟨⟨schema, []⟩, ⟨schema, groups⟩, ⟨schema, groups⟩, rfl, ?_, rfl, rfl⟩
    rw [Library.plain_writeGroup]
    exact foldlM_addGroup (fun batch hbatch => (hgroups batch hbatch).1) []

/-- A text and a value that is kept whole are stored alike, so that the pages of two inputs share a
file; a page with a truth value in the place of a number does not go with them. -/
theorem stored_whole_or_not_drifting :
    ∃ first second third : Table,
      ((Source.queue [[("a", .scalar (.int32 1)), ("b", .array [.null])], []]).flatten
        Options.default 2).1 = .ok first ∧
      ((Source.queue [[("a", .scalar (.int32 2)), ("b", .scalar (.string "x"))]]).flatten
        Options.default 2).1 = .ok second ∧
      ((Source.queue [[("a", .scalar (.bool true)), ("b", .null)]]).flatten
        Options.default 2).1 = .ok third ∧
      Library.plain.Lawful ∧
      (∀ table ∈ [first, second, third], table.IsPage ∧ table.columns ≠ []) ∧
      Library.plain.convert third = .ok third.batch ∧
      (∃ file, Style.parquet.inputs [("x", [first]), ("y", [second])] = .ok (.columns file) ∧
        file.columns = [[.int32 1, .missing, .int32 2],
          [.string "[null]", .missing, .string "x"]] ∧
        ∃ written, Library.plain.read written = some (file.schema, file.columns) ∧
          Library.plain.send [first, second] [] = (.ok (), [written])) ∧
      Style.parquet.inputs [("x", [first]), ("y", [second, third])] = .error (.schemaDiffers 3) ∧
      FirstDiffers [first, second, third] 3 ∧
      Library.plain.send [first, second, third] [] =
        (.error (.refused (.schemaDiffers 3)), []) := by
  obtain ⟨first, hfirst⟩ : ∃ first : Table, first = ⟨[⟨"a", .int32, #[.int32 1, .missing]⟩,
      ⟨"b", .list, #[.list (.array [.null]), .missing]⟩], 2, []⟩ := ⟨_, rfl⟩
  obtain ⟨second, hsecond⟩ : ∃ second : Table, second = ⟨[⟨"a", .int32, #[.int32 2]⟩,
      ⟨"b", .string, #[.string "x"]⟩], 1, []⟩ := ⟨_, rfl⟩
  obtain ⟨third, hthird⟩ : ∃ third : Table, third = ⟨[⟨"a", .bool, #[.bool true]⟩,
      ⟨"b", .bool, #[.missing]⟩], 1, [.nullDefaultedToBool "b" 0]⟩ := ⟨_, rfl⟩
  have hfirstPage : ((Source.queue [[("a", .scalar (.int32 1)), ("b", .array [.null])], []]).flatten
      Options.default 2).1 = .ok first := by
    rw [hfirst]
    with_unfolding_all rfl
  have hsecondPage : ((Source.queue [[("a", .scalar (.int32 2)),
      ("b", .scalar (.string "x"))]]).flatten Options.default 2).1 = .ok second := by
    rw [hsecond]
    with_unfolding_all rfl
  have hthirdPage : ((Source.queue [[("a", .scalar (.bool true)), ("b", .null)]]).flatten
      Options.default 2).1 = .ok third := by
    rw [hthird]
    with_unfolding_all rfl
  have hpages : ∀ table ∈ [first, second, third], table.IsPage ∧ table.columns ≠ [] := by
    rw [List.forall_mem_cons, List.forall_mem_cons, List.forall_mem_singleton]
    refine ⟨⟨⟨_, _, _, hfirstPage⟩, ?_⟩, ⟨⟨_, _, _, hsecondPage⟩, ?_⟩, ⟨_, _, _, hthirdPage⟩, ?_⟩
    · simp [hfirst]
    · simp [hsecond]
    · simp [hthird]
  obtain ⟨hconvert, hinputs⟩ := stored_whole_or_not Library.plain_lawful
  obtain ⟨file, hfile⟩ : ∃ file, Style.parquet.inputs [("x", [first]), ("y", [second])] =
      .ok (.columns file) := by
    rw [hfirst, hsecond]
    exact ⟨_, rfl⟩
  have hfault : Style.parquet.inputs [("x", [first]), ("y", [second, third])] =
      .error (.schemaDiffers 3) := by
    rw [hfirst, hsecond, hthird]
    rfl
  obtain ⟨-, hstored, -⟩ := hinputs [("x", [first]), ("y", [second])] (by simp_all)
  obtain ⟨-, -, hrefused⟩ := hinputs [("x", [first]), ("y", [second, third])] (by simp_all)
  obtain ⟨_, ⟨⟩, ⟨head, hhead, -, hcolumns⟩, written, hread, hsend⟩ := hstored _ hfile
  obtain ⟨⟨hnone, -⟩ | ⟨number, hdiffers, hnumber, -⟩, hkept⟩ := hrefused _ hfault
  · cases hnone
  · cases hnumber
    refine ⟨first, second, third, hfirstPage, hsecondPage, hthirdPage, Library.plain_lawful, hpages,
      hconvert third (hpages third (by simp)).1, ⟨file, hfile, ?_, written, hread, hsend []⟩, hfault,
      hdiffers, hkept []⟩
    cases hhead
    rw [hcolumns, hfirst, hsecond]
    with_unfolding_all rfl

end ColumnFile

end DocTable

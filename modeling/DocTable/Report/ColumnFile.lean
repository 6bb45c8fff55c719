import DocTable.Table.Basic

/-!
# Files of columns

Pages can be stored column by column in a file with one schema and one group of rows for every page.
The file knows fewer types than a table: a value that is kept whole is stored as its JSON text. All
pages of a file must have the same schema.
-/

set_option autoImplicit false

namespace DocTable

/-- The type of a stored column. -/
inductive StoredType where
  | boolean
  | int32
  | float64
  | utf8
  | timestamp
  deriving DecidableEq, Repr

/-- The name of a stored type; timestamps count milliseconds in universal time. -/
def StoredType.name : StoredType → String
  | boolean => "Boolean"
  | int32 => "Int32"
  | float64 => "Float64"
  | utf8 => "Utf8"
  | timestamp => "Timestamp(Millisecond, Some(\"UTC\"))"

/-- The type that a column is stored with. -/
def ColumnType.stored : ColumnType → StoredType
  | bool => .boolean
  | int32 => .int32
  | double => .float64
  | dateTime => .timestamp
  | string => .utf8
  | list => .utf8

/-- The cell that is stored for a cell. -/
def Cell.stored : Cell → Cell
  | list v => string v.jsonText
  | cell => cell

/-- A group of rows with its schema. -/
structure Batch where
  schema : List (String × StoredType)
  rowCount : Nat
  columns : List (List Cell)
  deriving Repr

/-- The rows of a table as they are stored. -/
def Table.batch (table : Table) : Batch where
  schema := table.columns.map fun c => (c.name, c.type.stored)
  rowCount := table.rowCount
  columns := table.columns.map fun c => c.cells.toList.map Cell.stored

/-- A file of groups of rows that share a schema. -/
structure ColumnFile where
  schema : List (String × StoredType)
  groups : List Batch
  deriving Repr

namespace ColumnFile

/-- Why pages cannot be stored in a file. -/
inductive Fault where
  | noPages
  /-- The page of this number, counted from 1, has another schema than the first. -/
  | schemaDiffers (page : Nat)
  deriving DecidableEq, Repr

/-- The wording of a fault. -/
def Fault.message : Fault → String
  | noPages => "No documents to write"
  | schemaDiffers page =>
    "Page " ++ natText page ++ " has a different schema than page 1; "
      ++ "Parquet output needs a single schema (try a larger --page-size)"

/-- The groups of the pages from number `page` on. -/
def groupsOf (schema : List (String × StoredType)) :
    (page : Nat) → List Table → Except Fault (List Batch)
  | _, [] => .ok []
  | page, table :: tables => do
    let batch := table.batch
    if batch.schema = schema then
      let groups ← groupsOf schema (page + 1) tables
      .ok (batch :: groups)
    else .error (.schemaDiffers page)

/-- The file of some pages. -/
def ofPages : List Table → Except Fault ColumnFile
  | [] => .error .noPages
  | table :: tables => do
    let schema := table.batch.schema
    let groups ← groupsOf schema 1 (table :: tables)
    .ok ⟨schema, groups⟩

/-- The cells of every column, through all groups. -/
def columns (file : ColumnFile) : List (List Cell) :=
  (List.range file.schema.length).map fun i =>
    file.groups.flatMap fun batch => batch.columns.getD i []

end ColumnFile

end DocTable

import DocTable.Table.Cell

/-!
# Columns

A column has a name, a type and a cell for every row. Storing a cell may widen the column first; all
its cells are then converted.
-/

set_option autoImplicit false

namespace DocTable

/-- A named column of cells of one type. -/
structure Column where
  name : String
  type : ColumnType
  cells : Array Cell
  deriving DecidableEq, Repr

/-- The type that a column must have to take a cell: a wider one where a number meets a narrower
column or a text meets a column of truth values or numbers. -/
def ColumnType.widened : ColumnType → Cell → ColumnType
  | .bool, .int32 _ => .int32
  | .bool, .double _ => .double
  | .int32, .double _ => .double
  | .bool, .string _ => .string
  | .int32, .string _ => .string
  | .double, .string _ => .string
  | type, _ => type

namespace Column

/-- The number of rows. -/
def size (column : Column) : Nat := column.cells.size

/-- The column with all its cells converted to a type. -/
def widen (column : Column) (type : ColumnType) : Column :=
  if column.type = type then column
  else { column with type, cells := column.cells.map fun cell => (cell.convert? type).getD cell }

/-- What comes of storing a cell: the column as it is then, and the cell if it was refused. -/
structure Insertion where
  column : Column
  refused : Option Cell
  deriving DecidableEq, Repr

/-- Stores a cell behind the others. The column is widened first if the cell asks for it; a cell that
it cannot take even so is handed back. -/
def insert (column : Column) (cell : Cell) : Insertion :=
  let wide := column.widen (column.type.widened cell)
  match cell.convert? wide.type with
  | some kept => ⟨{ wide with cells := wide.cells.push kept }, none⟩
  | none => ⟨wide, some cell⟩

/-- The column with one more missing cell. -/
def insertMissing (column : Column) : Column :=
  { column with cells := column.cells.push .missing }

/-- A column that is missing in the first `rows` rows and has the type of `cell`. -/
def startAt (rows : Nat) (name : String) (cell : Cell) : Column :=
  ⟨name, cell.type, Array.replicate rows .missing⟩

/-- The column without its cells behind the first `rows`. -/
def shrinkTo (column : Column) (rows : Nat) : Column :=
  { column with cells := column.cells.take rows }

/-- The number of missing cells. -/
def missingCount (column : Column) : Nat :=
  column.cells.countP Cell.isMissing

end Column

end DocTable

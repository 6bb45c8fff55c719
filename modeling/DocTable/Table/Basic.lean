import DocTable.Table.Column

/-!
# Tables

A table is a list of columns with a cell for each of its rows, and the warnings that came up while
it was filled.
-/

set_option autoImplicit false

namespace DocTable

/-- Something noteworthy about how a table was filled. -/
inductive Warning where
  /-- A column starts with a null, so its type is a guess. -/
  | nullDefaultedToBool (column : String) (row : Nat)
  deriving DecidableEq, Repr

/-- The wording of a warning. -/
def Warning.message : Warning → String
  | nullDefaultedToBool column row =>
    "found a null for column '" ++ column ++ "' at row " ++ natText row ++ "; defaulting to bool"

/-- Columns of the same number of rows. -/
structure Table where
  columns : List Column
  rowCount : Nat
  warnings : List Warning
  deriving DecidableEq, Repr

namespace Table

/-- The table without rows. -/
def empty : Table := ⟨[], 0, []⟩

/-- Whether the table has no rows. -/
def isEmpty (table : Table) : Bool := table.rowCount = 0

/-- The names of the columns in order. -/
def names (table : Table) : List String :=
  table.columns.map (·.name)

/-- The first column of a name, and its place. -/
def column? (table : Table) (name : String) : Option (Nat × Column) :=
  match table.columns.findIdx? (·.name == name) with
  | some index => table.columns[index]?.map (index, ·)
  | none => none

/-- Puts a type under a name: in the place of that name if it is there, else at the end. -/
def putType (name : String) (type : ColumnType) :
    List (String × ColumnType) → List (String × ColumnType)
  | [] => [(name, type)]
  | (other, old) :: types =>
    if other = name then (other, type) :: types else (other, old) :: putType name type types

/-- The type of every name; of a repeated name the place of the first column and the type of the
last. -/
def schema (table : Table) : List (String × ColumnType) :=
  table.columns.foldl (fun types column => putType column.name column.type types) []

/-- The cells of a row, if the table has that row and every column a cell for it. -/
def row? (table : Table) (row : Nat) : Option (List Cell) :=
  if row < table.rowCount then table.columns.mapM (·.cells[row]?) else none

/-- The rows in order. -/
def rows (table : Table) : List (List Cell) :=
  (List.range table.rowCount).filterMap table.row?

end Table

end DocTable

import DocTable.Error
import DocTable.Table.Basic

/-!
# Filling a table with documents

Every document becomes a row. Its fields are matched with the columns from left to right: a field
goes to the next column of its name, the columns passed over are missing in this row, and a field
without such a column gets a new one where the matching stands. Neither fields nor columns are ever
reordered. A value may widen its column; a value that its column cannot take is an error.
-/

set_option autoImplicit false

namespace DocTable

namespace Table

/-- The columns before the first one of a name, that column, and those after it. -/
def splitAtName? (name : String) : List Column → Option (List Column × Column × List Column)
  | [] => none
  | column :: columns =>
    if column.name = name then some ([], column, columns)
    else
      (splitAtName? name columns).map fun (before, found, after) => (column :: before, found, after)

/-- Stores a value as the cell of row `row` of a column. -/
def store (options : Options) (row : Nat) (column : Column) (value : Value) :
    Except Error Column :=
  let inserted := column.insert (Cell.ofValue options value)
  match inserted.refused with
  | none => .ok inserted.column
  | some _ => .error (.heterogeneousColumn inserted.column.name row column.type value.kind)

/-- A column for a field that first occurs in row `row`, and the warning that a null asks for. -/
def startColumn (options : Options) (row : Nat) (name : String) (value : Value) :
    Except Error (Column × List Warning) := do
  let cell := Cell.ofValue options value
  let warnings := if cell.isMissing then [.nullDefaultedToBool name row] else []
  let column ← store options row (Column.startAt row name cell) value
  .ok (column, warnings)

/-- Places the fields of row `row` in the columns from the current one on. -/
def place (options : Options) (row : Nat) :
    (columns : List Column) → (fields : List (String × Value)) →
      Except Error (List Column × List Warning)
  | columns, [] => .ok (columns.map Column.insertMissing, [])
  | columns, (name, value) :: fields =>
    match splitAtName? name columns with
    | some (before, found, after) => do
      let found ← store options row found value
      let (after, warnings) ← place options row after fields
      .ok (before.map Column.insertMissing ++ found :: after, warnings)
    | none => do
      let (column, started) ← startColumn options row name value
      let (columns, warnings) ← place options row columns fields
      .ok (column :: columns, started ++ warnings)

/-- The table with one more row, that of a document. -/
def append (options : Options) (table : Table) (doc : Document) : Except Error Table := do
  let (columns, warnings) ← place options table.rowCount table.columns doc
  .ok ⟨columns, table.rowCount + 1, table.warnings ++ warnings⟩

/-- The table with every column cut to its rows, as it is given out. -/
def finish (table : Table) : Table :=
  { table with columns := table.columns.map (·.shrinkTo table.rowCount) }

end Table

end DocTable

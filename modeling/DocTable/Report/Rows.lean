import DocTable.Table.Basic

/-!
# Rows as JSON

Every row is an object with a member for each cell that is not missing, in the order of the columns;
of several columns of one name the last such cell counts.
-/

set_option autoImplicit false

namespace DocTable.Rows

/-- The members of a row, names repeated as the columns repeat them. -/
def members (names : List String) (cells : List Cell) : Json.Members :=
  (names.zip cells).filterMap fun (name, cell) => cell.value?.map fun v => (name, v.toJson)

/-- The objects of a table's rows. -/
def objects (table : Table) : List Json :=
  table.rows.map fun cells => Json.objectOf (members table.names cells)

/-- All rows of consecutive pages as one array. -/
def ofPages (tables : List Table) : Json :=
  .array (tables.flatMap objects)

/-- The rows of one input alone, or those of several, each with its label. -/
def ofInputs : List (String × List Table) → Json
  | [(_, tables)] => ofPages tables
  | inputs =>
    .array (inputs.map fun (label, tables) =>
      .object [("input", .string label), ("rows", ofPages tables)])

end DocTable.Rows

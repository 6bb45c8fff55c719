/-!
# Column types

The six types that a column of a table can have.
-/

set_option autoImplicit false

namespace DocTable

/-- The type of the cells of a column. -/
inductive ColumnType where
  | bool
  | int32
  | double
  | dateTime
  | string
  /-- Values that are kept whole: arrays, documents, binaries and timestamps. -/
  | list
  deriving DecidableEq, Repr

/-- The name under which a column type is shown. -/
def ColumnType.name : ColumnType → String
  | bool => "bool"
  | int32 => "int32"
  | double => "double"
  | dateTime => "datetime"
  | string => "string"
  | list => "list"

end DocTable

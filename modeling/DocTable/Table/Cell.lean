import DocTable.ColumnType
import DocTable.ExtendedJson.Basic

/-!
# Cells

A cell is what a table keeps of a value: a scalar in one of five forms, or the value itself. A cell
can be converted to any wider type along `bool`, `int32`, `double`, `string`; dates and whole values
convert to nothing else.
-/

set_option autoImplicit false

namespace DocTable

/-- The content of a cell. -/
inductive Cell where
  | missing
  | bool (b : Bool)
  | int32 (n : Int32)
  | double (x : Binary64)
  | string (s : String)
  /-- Milliseconds since 1970. -/
  | dateTime (millis : Int64)
  | list (v : Value)
  deriving DecidableEq, Repr

/-- How values become cells. -/
structure Options where
  /-- Keep integers of 64 bits as their decimal digits instead of as doubles. -/
  bigintAsString : Bool
  /-- Keep dates as text. -/
  dateAsString : Bool
  deriving DecidableEq, Repr

/-- Integers of 64 bits become doubles and dates stay dates. -/
def Options.default : Options := ⟨false, false⟩

namespace Cell

/-- The cell of a scalar. -/
def ofScalar (options : Options) : Scalar → Cell
  | .null => missing
  | .bool b => bool b
  | .int32 n => int32 n
  | .int64 n =>
    if options.bigintAsString then string (intText n.toInt) else double (Binary64.ofInt n.toInt)
  | .double x => double x
  | .decimal d => double d.toBinary64
  | .string s => string s
  | .code s => string s
  | .symbol s => string s
  | .objectId id => string id.text
  | .binary subtype bytes => list (.scalar (.binary subtype bytes))
  | .dateTime millis =>
    if options.dateAsString then string (Instant.text millis.toInt) else dateTime millis
  | .timestamp seconds increment => list (.scalar (.timestamp seconds increment))

/-- The cell of a value. -/
def ofValue (options : Options) : Value → Cell
  | .scalar s => ofScalar options s
  | v => list v

/-- The type of a column that starts with a cell. A missing cell tells nothing, and the column takes
the narrowest type. -/
def type : Cell → ColumnType
  | missing => .bool
  | bool _ => .bool
  | int32 _ => .int32
  | double _ => .double
  | string _ => .string
  | dateTime _ => .dateTime
  | list _ => .list

/-- A truth value as text. -/
def boolText (b : Bool) : String :=
  if b then "true" else "false"

/-- The cell as one of the given type, if it can be stored there. -/
def convert? : ColumnType → Cell → Option Cell
  | _, missing => some missing
  | .bool, bool b => some (bool b)
  | .int32, bool b => some (int32 (if b then 1 else 0))
  | .int32, int32 n => some (int32 n)
  | .double, bool b => some (double (Binary64.ofInt (if b then 1 else 0)))
  | .double, int32 n => some (double (Binary64.ofInt n.toInt))
  | .double, double x => some (double x)
  | .string, bool b => some (string (boolText b))
  | .string, int32 n => some (string (intText n.toInt))
  | .string, double x => some (string x.cellText)
  | .string, string s => some (string s)
  | .dateTime, dateTime millis => some (dateTime millis)
  | .list, list v => some (list v)
  | _, _ => none

/-- Whether the cell is missing. -/
def isMissing : Cell → Bool
  | missing => true
  | _ => false

/-- The cell as a value; a missing cell has none. -/
def value? : Cell → Option Value
  | missing => none
  | bool b => some (.scalar (.bool b))
  | int32 n => some (.scalar (.int32 n))
  | double x => some (.scalar (.double x))
  | string s => some (.scalar (.string s))
  | dateTime millis => some (.scalar (.dateTime millis))
  | list v => some v

/-- The cell as shown in a table. -/
def text : Cell → String
  | missing => "NA"
  | bool b => boolText b
  | int32 n => intText n.toInt
  | double x => x.cellText
  | string s => s
  | dateTime millis => Instant.text millis.toInt
  | list v => v.jsonText

end Cell

end DocTable

import DocTable.Table.Basic

/-!
# Delimited records

A record is its fields with a delimiter between them and a line feed behind. A field in which a
reader would see a delimiter, a quote or the end of a line stands in quotes, its own quotes doubled;
a record that would be an empty line is written as an empty quoted field. A page writes its column
names when they are not those of the page before.
-/

set_option autoImplicit false

namespace DocTable.Csv

/-- Whether a field can stand only in quotes. -/
def needsQuotes (delimiter : Char) (field : List Char) : Bool :=
  field.any fun c => c == delimiter || c == '\x22' || c == '\n' || c == '\r'

/-- A quote inside quotes is written twice. -/
def doubled (c : Char) : List Char :=
  if c = '\x22' then ['\x22', '\x22'] else [c]

/-- A field as written. -/
def fieldText (delimiter : Char) (field : List Char) : List Char :=
  if needsQuotes delimiter field then '\x22' :: (field.flatMap doubled ++ ['\x22']) else field

/-- The fields of a record with delimiters between them. -/
def joined (delimiter : Char) : List (List Char) → List Char
  | [] => []
  | [field] => fieldText delimiter field
  | field :: fields => fieldText delimiter field ++ delimiter :: joined delimiter fields

/-- A record as a line. -/
def recordText (delimiter : Char) (record : List (List Char)) : List Char :=
  let line := joined delimiter record
  (if line = [] then ['\x22', '\x22'] else line) ++ ['\n']

/-- The field of a cell; a missing cell is an empty field. -/
def field (cell : Cell) : List Char :=
  match cell with
  | .missing => []
  | cell => cell.text.toList

/-- The records of a page: the names, unless they are the previous ones, and the rows. -/
def pageRecords (previous : Option (List String)) (table : Table) : List (List (List Char)) :=
  let header := if previous = some table.names then [] else [table.names.map String.toList]
  header ++ table.rows.map (·.map field)

/-- The records of consecutive pages. -/
def records : (previous : Option (List String)) → List Table → List (List (List Char))
  | _, [] => []
  | previous, table :: tables =>
    pageRecords previous table ++ records (some table.names) tables

/-- The text of consecutive pages. -/
def pagesText (delimiter : Char) (tables : List Table) : String :=
  String.ofList ((records none tables).flatMap (recordText delimiter))

end DocTable.Csv

import DocTable.Format
import DocTable.Report.ColumnFile
import DocTable.Report.Csv
import DocTable.Report.Rows
import DocTable.Report.Summary
import DocTable.Report.Terminal

/-!
# Reports

A report is what is made of tables for a reader: a text, or a file of columns. `Style` tells which
kind it is and how it looks.
-/

set_option autoImplicit false

namespace DocTable

/-- The kind and the looks of a report. -/
inductive Style where
  | terminal (color : Bool)
  | json (pretty : Bool)
  | csv (delimiter : Char)
  | parquet
  deriving DecidableEq, Repr

/-- A report. -/
inductive Report where
  | text (s : String)
  | columns (file : ColumnFile)
  deriving Repr

/-- The pages of an input under its label. -/
abbrev Labelled := String × List Table

namespace Style

/-- The usual style of a format. -/
def ofFormat (color : Bool) : OutputFormat → Style
  | .terminal => terminal color
  | .json => json true
  | .csv => csv ','
  | .parquet => parquet

/-- A JSON value as a text that ends in a line feed. -/
def jsonText (pretty : Bool) (j : Json) : String :=
  (if pretty then j.pretty else j.compact) ++ "\n"

/-- The report of consecutive pages of one input. -/
def pages (style : Style) (tables : List Table) : Except ColumnFile.Fault Report :=
  match style with
  | terminal color => .ok (.text (Terminal.pagesText color tables))
  | json pretty => .ok (.text (jsonText pretty (Rows.ofPages tables)))
  | csv delimiter => .ok (.text (Csv.pagesText delimiter tables))
  | parquet => (ColumnFile.ofPages tables).map .columns

/-- The report of a single table. -/
def table (style : Style) (table : Table) : Except ColumnFile.Fault Report :=
  match style with
  | terminal color => .ok (.text (Terminal.tableText color table))
  | style => style.pages [table]

/-- The report of several inputs. -/
def inputs (style : Style) (inputs : List Labelled) : Except ColumnFile.Fault Report :=
  match style with
  | terminal color => .ok (.text (Terminal.inputsText color inputs))
  | json pretty => .ok (.text (jsonText pretty (Rows.ofInputs inputs)))
  | csv delimiter =>
    .ok (.text (String.join (inputs.map fun (_, tables) => Csv.pagesText delimiter tables)))
  | parquet => (ColumnFile.ofPages (inputs.flatMap (·.2))).map .columns

end Style

/-- The summaries of several inputs. -/
def summaries (inputs : List Labelled) : String :=
  String.join (inputs.map fun (label, tables) => Summary.text label tables)

end DocTable

import DocTable.Report.Grid
import DocTable.Table.Basic

/-!
# Tables on a terminal

Every page has a title between two rules, a grid with the names and types of the columns above the
rows, and its warnings.
-/

set_option autoImplicit false

namespace DocTable.Terminal

/-- The rule above and below a title. -/
def rule : String := String.ofList (List.replicate 64 '━')

/-- A title between rules, bold if colour is wanted. -/
def title (color : Bool) (text : String) : String :=
  let line := " " ++ text
  let shown := if color then "\x1b[0m\x1b[1m" ++ line ++ "\x1b[0m" else line
  rule ++ "\n" ++ shown ++ "\n" ++ rule ++ "\n"

/-- The warnings of a table. -/
def warningsText (table : Table) : String :=
  if table.warnings = [] then ""
  else "Warnings:\n" ++ String.join (table.warnings.map fun w => "  " ++ w.message ++ "\n")

/-- The grid of a table, unless it has no columns. -/
def gridText (table : Table) : String :=
  if table.columns = [] then ""
  else
    let header := table.columns.map fun c => c.name ++ "\n<" ++ c.type.name ++ ">"
    Grid.text (header :: table.rows.map (·.map Cell.text))

/-- The number of rows and columns of a table. -/
def shape (table : Table) : String :=
  natText table.rowCount ++ " rows × " ++ natText table.columns.length ++ " columns"

/-- A table under the given title. -/
def titled (color : Bool) (heading : String) (table : Table) : String :=
  title color heading ++ gridText table ++ warningsText table ++ "\n"

/-- A single table. -/
def tableText (color : Bool) (table : Table) : String :=
  titled color (shape table) table

/-- Consecutive pages, the first of which has number `page`. -/
def numbered (color : Bool) : (page : Nat) → List Table → String
  | _, [] => ""
  | page, table :: tables =>
    titled color ("Page " ++ natText page ++ ": " ++ shape table) table
      ++ numbered color (page + 1) tables

/-- The pages of an input, numbered from 1. -/
def pagesText (color : Bool) : List Table → String
  | [] => "No documents found.\n"
  | tables => numbered color 1 tables

/-- One input alone, or several, each under its label. -/
def inputsText (color : Bool) : List (String × List Table) → String
  | [(_, tables)] => pagesText color tables
  | inputs =>
    String.join (inputs.map fun (label, tables) => title color label ++ pagesText color tables)

end DocTable.Terminal

import DocTable.Report.Grid
import DocTable.Table.Basic

/-!
# Summaries

A summary lists the names of the columns of all pages of an input, in the order in which they first
occur, with the types that they have and the number of missing cells. A page without a column of a
name adds all its rows to the missing ones; a page with several adds the missing cells of each.
-/

set_option autoImplicit false

namespace DocTable.Summary

/-- What is known of the columns of a name. -/
structure Entry where
  name : String
  types : List ColumnType
  missing : Nat
  deriving DecidableEq, Repr

/-- An entry with one more column. -/
def Entry.add (entry : Entry) (column : Column) : Entry :=
  { entry with
    types := if column.type ∈ entry.types then entry.types else entry.types ++ [column.type]
    missing := entry.missing + column.missingCount }

/-- The entries with one more column; a new name is missing in all `rowsBefore` rows so far. -/
def addColumn (rowsBefore : Nat) (column : Column) : List Entry → List Entry
  | [] => [Entry.add ⟨column.name, [], rowsBefore⟩ column]
  | entry :: entries =>
    if entry.name = column.name then entry.add column :: entries
    else entry :: addColumn rowsBefore column entries

/-- The entries with one more page, `rowsBefore` rows being in the pages before. -/
def addPage (rowsBefore : Nat) (table : Table) (entries : List Entry) : List Entry :=
  let filled := table.columns.foldl (fun entries c => addColumn rowsBefore c entries) entries
  filled.map fun entry =>
    if entry.name ∈ table.names then entry
    else { entry with missing := entry.missing + table.rowCount }

/-- The entries of consecutive pages that follow `rowsBefore` rows. -/
def addPages : (rowsBefore : Nat) → List Entry → List Table → List Entry
  | _, entries, [] => entries
  | rowsBefore, entries, table :: tables =>
    addPages (rowsBefore + table.rowCount) (addPage rowsBefore table entries) tables

/-- The entries of all pages. -/
def entries (tables : List Table) : List Entry :=
  addPages 0 [] tables

/-- The row of an entry. -/
def Entry.cells (entry : Entry) : List String :=
  [entry.name, " | ".intercalate (entry.types.map ColumnType.name), natText entry.missing]

/-- The summary of an input. -/
def text (label : String) (tables : List Table) : String :=
  let rows := tables.foldl (fun n table => n + table.rowCount) 0
  let heading :=
    label ++ ": " ++ natText tables.length ++ " pages, " ++ natText rows ++ " rows\n"
  let warnings := tables.foldl (fun n table => n + table.warnings.length) 0
  match entries tables with
  | [] => heading
  | found =>
    heading ++ Grid.text (["column", "type", "missing"] :: found.map Entry.cells)
      ++ (if warnings = 0 then "" else natText warnings ++ " warnings\n")

end DocTable.Summary

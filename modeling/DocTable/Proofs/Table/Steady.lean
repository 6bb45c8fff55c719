import DocTable.Proofs.Table.Flatten

/-!
# Types that do not drift

Where all values under one name make cells of one type, no value is ever converted.

* `SameClasses` — the documents agree on the type of each name; a null has no say in it.
* `Steady` — the same, with the types of the names at hand.
* `Column.Settled` — the invariant of such a table: a column has the type of its name, or it was
  started by nulls and has no value yet.
* `Settled.insert?`, `Placed.settled`, `settled_of_foldlM` — one cell, one document and a run of
  documents keep it.
* `RowOf.values_eq` — a row holds what its document holds, with no value converted.
-/

set_option autoImplicit false

namespace DocTable

namespace Cell

/-- The cell can stand among cells of a type without a conversion. -/
def Fits (type : ColumnType) (cell : Cell) : Prop :=
  cell = missing ∨ cell.type = type

/-- The narrowest type gives way to that of any cell that it can take. -/
theorem widened_bool {cell kept : Cell}
    (h : cell.convert? (ColumnType.bool.widened cell) = some kept) :
    ColumnType.bool.widened cell = cell.type := by
  cases cell <;> first | rfl | cases h

end Cell

/-! ## Documents of one type for each name -/

/-- Any two values under one name that are not null make cells of the same type. -/
def SameClasses (options : Options) (docs : List Document) : Prop :=
  ∀ field ∈ docs.flatten, ∀ other ∈ docs.flatten, field.1 = other.1 →
    field.2 ≠ .null → other.2 ≠ .null →
      (Cell.ofValue options field.2).type = (Cell.ofValue options other.2).type

instance (options : Options) (docs : List Document) : Decidable (SameClasses options docs) :=
  inferInstanceAs (Decidable (∀ field ∈ docs.flatten, ∀ other ∈ docs.flatten,
    field.1 = other.1 → field.2 ≠ .null → other.2 ≠ .null → _ = _))

/-- Every value fits the type that its name has. -/
def Steady (options : Options) (kind : String → ColumnType) (fields : List (String × Value)) : Prop :=
  ∀ field ∈ fields, (Cell.ofValue options field.2).Fits (kind field.1)

/-- The type of the first value under a name that is not null. -/
def firstType (options : Options) (fields : List (String × Value)) (name : String) : ColumnType :=
  match fields.find? fun field => field.1 = name ∧ field.2 ≠ .null with
  | some field => (Cell.ofValue options field.2).type
  | none => .bool

theorem SameClasses.steady {options : Options} {docs : List Document}
    (h : SameClasses options docs) : Steady options (firstType options docs.flatten) docs.flatten := by
  intro field hfield
  by_cases hnull : field.2 = .null
  · exact .inl (Cell.ofValue_eq_missing.2 hnull)
  · right
    unfold firstType
    split
    · rename_i other hother
      have hmem := List.mem_of_find?_eq_some hother
      have hfound := List.find?_some hother
      simp only [decide_eq_true_eq] at hfound
      exact h field hfield other hmem hfound.1.symm hnull hfound.2
    · rename_i hnone
      have hno := List.find?_eq_none.1 hnone field hfield
      simp [hnull] at hno

/-- What there is to keep of a document: the values of its cells that are not missing. -/
def Document.kept (options : Options) (doc : Document) : List (String × Value) :=
  doc.filterMap fun field =>
    (Cell.ofValue options field.2).value?.map fun value => (field.1, value)

/-! ## Columns of one type -/

namespace Column

/-- The column has the type of its name, or it has no value yet. -/
def Settled (kind : String → ColumnType) (column : Column) : Prop :=
  column.type = kind column.name ∨
    column.type = .bool ∧ ∀ cell ∈ column.cells, cell = .missing

variable {kind : String → ColumnType} {options : Options} {row : Nat} {column wide : Column}
  {cell : Cell} {field : String × Value}

theorem Settled.insertMissing (h : column.Settled kind) : column.insertMissing.Settled kind := by
  rcases h with htype | ⟨htype, hmissing⟩
  · exact .inl htype
  · refine .inr ⟨htype, ?_⟩
    intro cell hcell
    rcases Array.mem_push.1 hcell with hold | hlast
    · exact hmissing cell hold
    · exact hlast

/-- **One cell** of the type of its name keeps a column settled. -/
theorem Settled.insert? (hcolumn : column.Settled kind) (hcell : cell.Fits (kind column.name))
    (h : column.insert? cell = some wide) : wide.Settled kind := by
  rcases hcell with rfl | htype
  · rw [insert?_missing] at h
    cases h
    exact hcolumn.insertMissing
  · -- a cell with a value leaves the column at the type of its name, or brings it there
    obtain ⟨kept, hkept, hwide⟩ := insert?_eq_some h
    have hwidened : column.type.widened cell = cell.type := by
      rcases hcolumn with hcolumn | ⟨hcolumn, -⟩
      · rw [hcolumn, ← htype, ColumnType.widened_type]
      · rw [hcolumn] at hkept ⊢
        exact Cell.widened_bool hkept
    left
    rw [insert?_name h, hwide]
    exact (widen_type _).trans (hwidened.trans htype)

theorem settled_startAt (rows : Nat) {name : String} (h : cell.Fits (kind name)) :
    (startAt rows name cell).Settled kind := by
  rcases h with rfl | htype
  · refine .inr ⟨rfl, ?_⟩
    intro other hother
    exact (Array.mem_replicate.1 hother).2
  · exact .inl htype

/-- What a settled column holds is the value itself. -/
theorem Settled.getElem?_of_keeps (hcolumn : column.Settled kind)
    (hcell : (Cell.ofValue options field.2).Fits (kind field.1))
    (h : column.Keeps options row field) :
    column.cells[row]? = some (Cell.ofValue options field.2) := by
  obtain ⟨hname, cell, hat, hstored⟩ := h
  rw [hat, Option.some.injEq]
  rcases hcell with hmissing | htype
  · rw [hmissing, hstored.missing_iff, hmissing]
  · rcases hcolumn with hcolumn | ⟨-, hmissing⟩
    · rw [hname, ← htype] at hcolumn
      exact hstored.eq_of_type_eq hcolumn
    · have hnone := hmissing cell (Array.mem_of_getElem? hat)
      rw [hnone, hstored.missing_iff.1 hnone]

end Column

namespace Table

variable {kind : String → ColumnType} {options : Options} {row : Nat} {table result : Table}
  {columns placed : List Column} {fields : List (String × Value)}

/-- Every column has the type of its name, or no value yet. -/
def AllSettled (kind : String → ColumnType) (columns : List Column) : Prop :=
  ∀ column ∈ columns, column.Settled kind

/-- **One document** keeps the columns settled, whichever of them its fields go to. -/
theorem Placed.settled (h : Placed options row columns fields placed)
    (hcolumns : AllSettled kind columns) (hfields : Steady options kind fields) :
    AllSettled kind placed := by
  induction h with
  | nil => exact nofun
  | skip column _ ih =>
    obtain ⟨hcolumn, hrest⟩ := List.forall_mem_cons.1 hcolumns
    exact List.forall_mem_cons.2 ⟨hcolumn.insertMissing, ih hrest hfields⟩
  | store hname hwide _ ih =>
    obtain ⟨hcolumn, hrest⟩ := List.forall_mem_cons.1 hcolumns
    obtain ⟨hfield, hfields⟩ := List.forall_mem_cons.1 hfields
    rw [← hname] at hfield
    exact List.forall_mem_cons.2 ⟨hcolumn.insert? hfield hwide, ih hrest hfields⟩
  | start hwide _ ih =>
    obtain ⟨hfield, hfields⟩ := List.forall_mem_cons.1 hfields
    have hstarted := Column.settled_startAt row hfield
    exact List.forall_mem_cons.2 ⟨hstarted.insert? hfield hwide, ih hcolumns hfields⟩

theorem settled_append {doc : Document} (hcolumns : AllSettled kind table.columns)
    (hdoc : Steady options kind doc) (h : table.append options doc = .ok result) :
    AllSettled kind result.columns := by
  obtain ⟨⟨columns, warnings⟩, hplace, h⟩ := Steps.bind_eq_ok.1 h
  cases h
  exact (placed_of_place hplace).settled hcolumns hdoc

/-- **A run** over documents keeps the columns settled. -/
theorem settled_foldlM {docs : List Document} (hcolumns : AllSettled kind table.columns)
    (hdocs : Steady options kind docs.flatten)
    (h : docs.foldlM (append options) table = .ok result) : AllSettled kind result.columns := by
  induction docs generalizing table with
  | nil =>
    cases h
    exact hcolumns
  | cons doc docs ih =>
    rw [List.flatten_cons] at hdocs
    obtain ⟨hdoc, hdocs⟩ := List.forall_mem_append.1 hdocs
    rw [List.foldlM_cons] at h
    obtain ⟨longer, happend, h⟩ := Steps.bind_eq_ok.1 h
    exact ih (settled_append hcolumns hdoc happend) hdocs h

theorem settled_of_foldlM {docs : List Document} (hdocs : Steady options kind docs.flatten)
    (h : docs.foldlM (append options) empty = .ok table) : AllSettled kind table.columns := by
  have hempty : AllSettled kind empty.columns := List.forall_mem_nil _
  exact settled_foldlM hempty hdocs h

/-! ## Rows of one type -/

/-- **The rows** of settled columns hold the values of their documents, none of them converted. -/
theorem RowOf.values_eq (h : RowOf options row columns fields) (hcolumns : AllSettled kind columns)
    (hfields : Steady options kind fields) :
    (columns.filterMap fun column =>
      (column.cells[row]?.bind Cell.value?).map fun value => (column.name, value)) =
      Document.kept options fields := by
  induction h with
  | nil => rfl
  | @skip column columns fields hmissing _ ih =>
    obtain ⟨-, hrest⟩ := List.forall_mem_cons.1 hcolumns
    have hnone : column.cells[row]?.bind Cell.value? = none := by
      rw [hmissing]
      rfl
    rw [List.filterMap_cons, hnone, Option.map_none, ih hrest hfields]
  | hit hkeeps _ ih =>
    obtain ⟨hcolumn, hrest⟩ := List.forall_mem_cons.1 hcolumns
    obtain ⟨hfield, hfields⟩ := List.forall_mem_cons.1 hfields
    have hcell := hcolumn.getElem?_of_keeps hfield hkeeps
    unfold Document.kept at ih ⊢
    rw [List.filterMap_cons, List.filterMap_cons, hcell, hkeeps.1, ih hrest hfields]
    rfl

end Table

end DocTable

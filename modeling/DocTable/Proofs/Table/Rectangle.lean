import DocTable.Proofs.Table.Flatten

/-!
# Rectangular tables

* `Table.Cursor` — how far the fields of a document have been matched with the columns.
* `append_eq_foldlM` — appending a document is a walk of the cursor, one step for each field.
* `Cursor.Level` — the invariant of the walk: a column has its cell of the new row exactly when the
  cursor has passed it. `Level.step` is one field, `Level.foldlM` any number of them.
* `Rectangular` — what a table owes to it: no cell is cut off and no row is dropped.
* `stays_rectangular` — so is every table on its way, and every table that is given out.
-/

set_option autoImplicit false

namespace DocTable.Table

variable {options : Options} {row : Nat} {table result : Table}

theorem allOfSize_append {rows : Nat} {before after : List Column} :
    AllOfSize rows (before ++ after) ↔ AllOfSize rows before ∧ AllOfSize rows after :=
  List.forall_mem_append

theorem AllOfSize.map_insertMissing {columns : List Column} (h : AllOfSize row columns) :
    AllOfSize (row + 1) (columns.map Column.insertMissing) := by
  intro column hcolumn
  obtain ⟨old, hold, rfl⟩ := List.mem_map.1 hcolumn
  rw [Column.insertMissing_size, h old hold]

/-! ## Walking along the columns -/

/-- How far the fields of a document have been matched with the columns. -/
structure Cursor where
  /-- The columns that were matched, passed over or started. -/
  passed : List Column
  /-- The columns that the next field is matched with. -/
  ahead : List Column
  warnings : List Warning

namespace Cursor

/-- In front of the first column. -/
def start (columns : List Column) : Cursor :=
  ⟨[], columns, []⟩

/-- Matches one more field. -/
def step (options : Options) (row : Nat) (cursor : Cursor) (field : String × Value) :
    Except Error Cursor :=
  match splitAtName? field.1 cursor.ahead with
  | some (before, found, after) => do
    let found ← store options row found field.2
    .ok ⟨cursor.passed ++ (before.map Column.insertMissing ++ [found]), after, cursor.warnings⟩
  | none => do
    let (column, started) ← startColumn options row field.1 field.2
    .ok ⟨cursor.passed ++ [column], cursor.ahead, cursor.warnings ++ started⟩

/-- What is placed when there are no more fields: the columns ahead are missing in the new row. -/
def placed (cursor : Cursor) : List Column × List Warning :=
  (cursor.passed ++ cursor.ahead.map Column.insertMissing, cursor.warnings)

variable {cursor next : Cursor} {field : String × Value} {fields : List (String × Value)}

/-- Placing fields from the current column on is a walk of the cursor. -/
theorem placed_foldlM (cursor : Cursor) (fields : List (String × Value)) :
    placed <$> fields.foldlM (step options row) cursor =
      (fun rest => (cursor.passed ++ rest.1, cursor.warnings ++ rest.2)) <$>
        place options row cursor.ahead fields := by
  induction fields generalizing cursor with
  | nil =>
    rw [List.foldlM_nil, place, Steps.map_ok, List.append_nil]
    rfl
  | cons field fields ih =>
    obtain ⟨name, value⟩ := field
    rw [List.foldlM_cons, place, step]
    cases splitAtName? name cursor.ahead with
    | some split =>
      obtain ⟨before, found, after⟩ := split
      cases hstore : store options row found value with
      | error error => simp only [hstore, Steps.error_bind, Steps.map_error]
      | ok wide =>
        simp only [hstore, Steps.ok_bind, ih]
        cases place options row after fields with
        | error error => rfl
        | ok rest => simp
    | none =>
      cases startColumn options row name value with
      | error error => rfl
      | ok started =>
        simp only [Steps.ok_bind, ih]
        cases place options row cursor.ahead fields with
        | error error => rfl
        | ok rest => simp

/-- The columns that are passed have their cell of row `row`; those ahead do not have it yet. -/
structure Level (row : Nat) (cursor : Cursor) : Prop where
  passed : AllOfSize (row + 1) cursor.passed
  ahead : AllOfSize row cursor.ahead

theorem level_start {columns : List Column} (h : AllOfSize row columns) :
    (start columns).Level row :=
  ⟨nofun, h⟩

/-- **One field** keeps the columns level, wherever it goes. -/
theorem Level.step (h : cursor.Level row) (hnext : cursor.step options row field = .ok next) :
    next.Level row := by
  unfold Cursor.step at hnext
  split at hnext
  · rename_i before found after hsplit
    obtain ⟨hahead, -⟩ := splitAtName?_eq_some hsplit
    obtain ⟨wide, hwide, hnext⟩ := Steps.bind_eq_ok.1 hnext
    cases hnext
    have hsizes := h.ahead
    rw [hahead, allOfSize_append] at hsizes
    obtain ⟨hbefore, hrest⟩ := hsizes
    obtain ⟨hfound, hafter⟩ := List.forall_mem_cons.1 hrest
    have hwide_size : wide.size = row + 1 := by
      rw [Column.insert?_size (store_eq_ok.1 hwide), hfound]
    refine ⟨?_, hafter⟩
    rw [allOfSize_append, allOfSize_append]
    exact ⟨h.passed, hbefore.map_insertMissing, List.forall_mem_singleton.2 hwide_size⟩
  · obtain ⟨⟨column, started⟩, hcolumn, hnext⟩ := Steps.bind_eq_ok.1 hnext
    cases hnext
    have hcolumn_size : column.size = row + 1 := by
      rw [Column.insert?_size (startColumn_eq_ok hcolumn), Column.startAt_size]
    refine ⟨?_, h.ahead⟩
    rw [allOfSize_append]
    exact ⟨h.passed, List.forall_mem_singleton.2 hcolumn_size⟩

/-- **Any number of fields** keeps them level. -/
theorem Level.foldlM (h : cursor.Level row)
    (hnext : fields.foldlM (Cursor.step options row) cursor = .ok next) : next.Level row := by
  apply Steps.foldlM_keeps (fun _ cursor => cursor.Level row) _ [] h hnext
  intro _ cursor field next hlevel hstep
  exact hlevel.step hstep

end Cursor

/-- The table with the row that a cursor leaves behind. -/
def withRow (table : Table) (cursor : Cursor) : Table :=
  ⟨cursor.placed.1, table.rowCount + 1, table.warnings ++ cursor.placed.2⟩

/-- Appending a document is a walk of the cursor, one step for each field. -/
theorem append_eq_foldlM (doc : Document) :
    table.append options doc =
      table.withRow <$>
        doc.foldlM (Cursor.step options table.rowCount) (Cursor.start table.columns) := by
  have hwalk : place options table.rowCount table.columns doc = Cursor.placed <$>
      doc.foldlM (Cursor.step options table.rowCount) (Cursor.start table.columns) := by
    rw [Cursor.placed_foldlM]
    exact (id_map _).symm
  unfold append
  rw [hwalk]
  cases doc.foldlM (Cursor.step options table.rowCount) (Cursor.start table.columns) with
  | error error => rfl
  | ok cursor => rfl

/-! ## Rows of a rectangular table -/

/-- The cells of a row that every column has. -/
def cellsAt (table : Table) (row : Nat) : List Cell :=
  table.columns.map fun column => column.cells[row]?.getD .missing

theorem mapM_getElem? {rows : Nat} {columns : List Column} (h : AllOfSize rows columns)
    (hrow : row < rows) :
    (columns.mapM fun column => column.cells[row]?) =
      some (columns.map fun column => column.cells[row]?.getD .missing) := by
  induction columns with
  | nil => rfl
  | cons column columns ih =>
    obtain ⟨hcolumn, hcolumns⟩ := List.forall_mem_cons.1 h
    have hlt : row < column.cells.size := by
      rw [← hcolumn] at hrow
      exact hrow
    rw [List.mapM_cons, ih hcolumns, Array.getElem?_eq_getElem hlt, List.map_cons,
      Array.getElem?_eq_getElem hlt]
    rfl

theorem row?_eq_cellsAt (h : AllOfSize table.rowCount table.columns)
    (hrow : row < table.rowCount) : table.row? row = some (table.cellsAt row) := by
  unfold row?
  rw [if_pos hrow]
  exact mapM_getElem? h hrow

theorem rows_eq_cellsAt (h : AllOfSize table.rowCount table.columns) :
    table.rows = (List.range table.rowCount).map table.cellsAt := by
  unfold rows
  apply List.filterMap_eq_map_iff_forall_eq_some.2
  intro row hrow
  exact row?_eq_cellsAt h (List.mem_range.1 hrow)

/-- No cell of the table lies behind its last row, and no row lacks a cell. -/
structure Rectangular (table : Table) : Prop where
  allOfSize : AllOfSize table.rowCount table.columns
  /-- Nothing is cut when the table is given out. -/
  finish_eq : table.finish = table
  row?_eq : ∀ row < table.rowCount, ∃ cells, table.row? row = some cells ∧
    cells.length = table.columns.length ∧ table.rows[row]? = some cells
  length_rows : table.rows.length = table.rowCount

theorem rectangular_of_allOfSize (h : AllOfSize table.rowCount table.columns) :
    table.Rectangular := by
  refine ⟨h, finish_eq_self h, ?_, ?_⟩
  · intro row hrow
    refine ⟨table.cellsAt row, row?_eq_cellsAt h hrow, ?_, ?_⟩
    · unfold cellsAt
      rw [List.length_map]
    · rw [rows_eq_cellsAt h, List.getElem?_map, List.getElem?_range hrow]
      rfl
  · rw [rows_eq_cellsAt h, List.length_map, List.length_range]

/-! ## Tables that are filled -/

/-- A page holds documents of its source, as many as it may or as there are. -/
theorem exists_docs_of_flatten {source : Source} {maxRows : Nat}
    (h : (source.flatten options maxRows).1 = .ok table) :
    ∃ docs : List Document, docs.length ≤ maxRows ∧
      docs.foldlM (append options) empty = .ok table ∧
      (docs = [] → source.hasMore.1 = false) := by
  obtain ⟨hpos, -⟩ := Source.flatten_eq_ok h
  obtain ⟨docs, hitems, htable⟩ := Source.foldlM_of_flatten h
  refine ⟨docs, ?_, htable, ?_⟩
  · have hlength := source.length_items_le maxRows
    rwa [hitems, List.length_map] at hlength
  · rintro rfl
    exact (Source.items_eq_nil_iff hpos).1 hitems

/-- **Tables stay rectangular.**  Between documents every column has a cell for each row; while a
document is placed, the columns that the cursor has passed have one cell more than those ahead of
it. So what is given out is rectangular too, and has a row unless its source has nothing to give. -/
theorem stays_rectangular (options : Options) :
    (∀ (docs : List Document) (table : Table), docs.foldlM (append options) empty = .ok table →
      table.rowCount = docs.length ∧ table.Rectangular ∧
      ∀ doc : Document,
        table.append options doc =
          table.withRow <$>
            doc.foldlM (Cursor.step options table.rowCount) (Cursor.start table.columns) ∧
        ∀ (fields : List (String × Value)) (cursor : Cursor), fields <+: doc →
          fields.foldlM (Cursor.step options table.rowCount) (Cursor.start table.columns) =
            .ok cursor → cursor.Level table.rowCount) ∧
    ∀ (source : Source) (maxRows : Nat) (table : Table),
      (source.flatten options maxRows).1 = .ok table →
      table.Rectangular ∧
        (1 ≤ table.rowCount ∧ table.rowCount ≤ maxRows ∨
          table = empty ∧ source.hasMore.1 = false) := by
  constructor
  · intro docs table hdocs
    have htable := isTableOf_of_foldlM hdocs
    refine ⟨htable.rowCount_eq, rectangular_of_allOfSize htable.allOfSize, fun doc => ?_⟩
    refine ⟨append_eq_foldlM doc, fun fields cursor _ hcursor => ?_⟩
    exact (Cursor.level_start htable.allOfSize).foldlM hcursor
  · intro source maxRows table htable
    obtain ⟨docs, hlength, hdocs, hnil⟩ := exists_docs_of_flatten htable
    have hrows := isTableOf_of_foldlM hdocs
    refine ⟨rectangular_of_allOfSize hrows.allOfSize, ?_⟩
    rw [hrows.rowCount_eq]
    rcases docs with _ | ⟨doc, docs⟩
    · cases hdocs
      exact .inr ⟨rfl, hnil rfl⟩
    · exact .inl ⟨Nat.succ_le_succ (Nat.zero_le _), hlength⟩

/-- A column passed over, one widened and two started, in the middle of the second document. -/
theorem stays_rectangular_widened :
    ∃ (first second : Document) (between page : Table) (cursor : Cursor),
      first = [("a", .scalar (.int32 1)), ("c", .null)] ∧
      second = [("b", .scalar (.int64 2)), ("c", .scalar (.string "x")), ("d", .null)] ∧
      [first].foldlM (append Options.default) empty = .ok between ∧ between.Rectangular ∧
      (second.take 2).foldlM (Cursor.step Options.default 1) (Cursor.start between.columns) =
        .ok cursor ∧
      cursor.Level 1 ∧
      ((Source.queue [first, second]).flatten Options.default 5).1 = .ok page ∧
      page.Rectangular ∧
      (1 ≤ page.rowCount ∧ page.rowCount ≤ 5 ∨
        page = empty ∧ (Source.queue [first, second]).hasMore.1 = false) := by
  obtain ⟨hbetween, hpage⟩ := stays_rectangular Options.default
  obtain ⟨-, hrectangular, hinside⟩ :=
    hbetween [[("a", .scalar (.int32 1)), ("c", .null)]] _ (by with_unfolding_all rfl)
  have hlevel := (hinside
    [("b", .scalar (.int64 2)), ("c", .scalar (.string "x")), ("d", .null)]).2 _ _
    (List.take_prefix 2 _) (by with_unfolding_all rfl)
  exact ⟨_, _, _, _, _, rfl, rfl, by with_unfolding_all rfl, hrectangular,
    by with_unfolding_all rfl, hlevel, by with_unfolding_all rfl,
    hpage (Source.queue [_, _]) 5 _ (by with_unfolding_all rfl)⟩

end DocTable.Table

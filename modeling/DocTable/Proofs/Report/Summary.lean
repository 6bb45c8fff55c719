import DocTable.Proofs.Json.Members
import DocTable.Proofs.Table.Flatten
import DocTable.Report.Summary

/-!
# What a summary counts

* `Summary.named`, `Summary.misses` — the columns of a name in a page, and how much a page adds to
  the missing count of a name.
* `addColumn_map` — one more column, told by what is known of each name.
* `foldl_addColumn`, `addPage_map`, `addPages_map` — all columns of a page, the page, and any pages.
* `entries_eq` — the entries of a summary are those of the names in the order of their first columns.
* `rowsWithout_le_misses`, `misses_eq_iff` — what a page adds is at least the number of its rows
  without a value, and more just if it has several columns of the name and a missing cell in them.
* `missing_counts_rows` — the same for a summary.
* `reordered_fields_exceed_rows` — fields in changing order, of which more are missing than there
  are rows.
-/

set_option autoImplicit false

namespace DocTable.Summary

/-! ## The entries of a summary -/

/-- The columns of a name in a page. -/
def named (name : String) (table : Table) : List Column :=
  table.columns.filter (·.name = name)

/-- What a page adds to the missing count of a name: its missing cells under this name, or all of
its rows if it has no such column. -/
def misses (name : String) (table : Table) : Nat :=
  if name ∈ table.names then ((named name table).map Column.missingCount).sum else table.rowCount

/-- The rows of some pages. -/
def rowsOf (tables : List Table) : Nat :=
  (tables.map Table.rowCount).sum

/-- The entry of a name, of which some columns and a missing count are known. -/
def entryWith (name : String) (columns : List Column) (missing : Nat) : Entry :=
  ⟨name, (columns.map (·.type)).eraseDups, missing⟩

/-- The entry of a name. -/
def entryOf (tables : List Table) (name : String) : Entry :=
  entryWith name (tables.flatMap (named name)) (tables.map (misses name)).sum

theorem entryWith_add (name : String) (columns : List Column) (missing : Nat) (column : Column) :
    (entryWith name columns missing).add column =
      entryWith name (columns ++ [column]) (missing + column.missingCount) := by
  simp only [Entry.add, entryWith, List.map_append, List.map_cons, List.map_nil, eraseDups_concat]
  rfl

/-- **One more column** is added to the entry of its name, which stands at the end if it is new. -/
theorem addColumn_map {names : List String} (hnodup : names.Nodup) {entry : String → Entry}
    (hname : ∀ name, (entry name).name = name) {rowsBefore : Nat} {column : Column}
    (hnew : column.name ∉ names → entry column.name = ⟨column.name, [], rowsBefore⟩) :
    addColumn rowsBefore column (names.map entry) =
      (if column.name ∈ names then names else names ++ [column.name]).map fun name =>
        if name = column.name then (entry name).add column else entry name := by
  induction names with
  | nil => simp [addColumn, hnew]
  | cons name names ih =>
    obtain ⟨hfresh, hnodup⟩ := List.nodup_cons.1 hnodup
    rw [List.map_cons, addColumn, hname]
    by_cases hhit : name = column.name
    · subst hhit
      -- as no name is there twice, the entries behind stay as they are
      have hrest : names.map (fun name => if name = column.name then (entry name).add column
          else entry name) = names.map entry := by
        apply List.map_congr_left
        intro other hother
        rw [if_neg]
        rintro rfl
        exact hfresh hother
      rw [if_pos rfl, if_pos List.mem_cons_self, List.map_cons, if_pos rfl, hrest]
    · have hmem : column.name ∈ name :: names ↔ column.name ∈ names := by
        simp [List.mem_cons, Ne.symm hhit]
      rw [if_neg hhit, ih hnodup fun h => hnew (by rwa [hmem])]
      simp only [hmem]
      split <;> simp [hhit]

/-! ## A name that does not occur -/

variable {name : String} {tables : List Table}

theorem filter_name_eq_nil {columns : List Column} (h : name ∉ columns.map (·.name)) :
    columns.filter (·.name = name) = [] := by
  rw [List.filter_eq_nil_iff]
  intro column hcolumn hname
  exact h (List.mem_map.2 ⟨column, hcolumn, of_decide_eq_true hname⟩)

theorem flatMap_named_eq_nil (h : name ∉ tables.flatMap Table.names) :
    tables.flatMap (named name) = [] := by
  rw [List.flatMap_eq_nil_iff]
  intro table htable
  exact filter_name_eq_nil fun hname => h (List.mem_flatMap.2 ⟨table, htable, hname⟩)

/-- All rows of pages without a name count as missing. -/
theorem sum_misses_of_not_mem (h : name ∉ tables.flatMap Table.names) :
    (tables.map (misses name)).sum = rowsOf tables := by
  have hmisses : tables.map (misses name) = tables.map Table.rowCount := by
    apply List.map_congr_left
    intro table htable
    exact if_neg fun hname => h (List.mem_flatMap.2 ⟨table, htable, hname⟩)
  rw [hmisses, rowsOf]

/-! ## Page after page -/

/-- What is known of a name when `columns` of the page behind some pages are counted. -/
def entryAmid (done : List Table) (columns : List Column) (name : String) : Entry :=
  entryWith name (done.flatMap (named name) ++ columns.filter (·.name = name))
    ((done.map (misses name)).sum +
      ((columns.filter (·.name = name)).map Column.missingCount).sum)

theorem entryAmid_nil (done : List Table) : entryAmid done [] = entryOf done := by
  funext name
  simp [entryAmid, entryOf]

theorem entryAmid_concat (done : List Table) (columns : List Column) (column : Column)
    (name : String) :
    (if name = column.name then (entryAmid done columns name).add column
      else entryAmid done columns name) = entryAmid done (columns ++ [column]) name := by
  unfold entryAmid
  split
  · rename_i hname
    simp [entryWith_add, hname, Nat.add_assoc]
  · rename_i hname
    simp [Ne.symm hname]

/-- **The columns of a page** are added one after the other. -/
theorem foldl_addColumn (done : List Table) (columns more : List Column) :
    more.foldl (fun entries column => addColumn (rowsOf done) column entries)
        ((done.flatMap Table.names ++ columns.map (·.name)).eraseDups.map
          (entryAmid done columns)) =
      (done.flatMap Table.names ++ (columns ++ more).map (·.name)).eraseDups.map
        (entryAmid done (columns ++ more)) := by
  induction more generalizing columns with
  | nil => rw [List.foldl_nil, List.append_nil]
  | cons column more ih =>
    have hnew : column.name ∉ (done.flatMap Table.names ++ columns.map (·.name)).eraseDups →
        entryAmid done columns column.name = ⟨column.name, [], rowsOf done⟩ := by
      rw [List.mem_eraseDups, List.mem_append, not_or]
      rintro ⟨hdone, hcolumns⟩
      rw [entryAmid, flatMap_named_eq_nil hdone, filter_name_eq_nil hcolumns,
        sum_misses_of_not_mem hdone]
      rfl
    rw [List.foldl_cons, addColumn_map (nodup_eraseDups _) (fun _ => rfl) hnew,
      ← eraseDups_concat, List.append_assoc, ← List.map_singleton, ← List.map_append]
    simp only [entryAmid_concat]
    rw [ih (columns ++ [column]), List.append_assoc, List.singleton_append]

/-- **A page** is counted. -/
theorem addPage_map (done : List Table) (table : Table) :
    addPage (rowsOf done) table ((done.flatMap Table.names).eraseDups.map (entryOf done)) =
      ((done ++ [table]).flatMap Table.names).eraseDups.map (entryOf (done ++ [table])) := by
  have hfilled := foldl_addColumn done [] table.columns
  rw [List.map_nil, List.append_nil, List.nil_append, entryAmid_nil] at hfilled
  have hnames : (done ++ [table]).flatMap Table.names =
      done.flatMap Table.names ++ table.columns.map (·.name) := by
    rw [List.flatMap_append, List.flatMap_singleton]
    rfl
  simp only [addPage, hfilled, hnames, List.map_map]
  apply List.map_congr_left
  intro name _
  have hcolumns : (done ++ [table]).flatMap (named name) =
      done.flatMap (named name) ++ table.columns.filter (·.name = name) := by
    rw [List.flatMap_append, List.flatMap_singleton]
    rfl
  simp only [Function.comp_apply, entryAmid, entryOf, entryWith, hcolumns, List.map_append,
    List.map_cons, List.map_nil, List.sum_append, List.sum_singleton, misses]
  split
  · rfl
  · rename_i hname
    simp [filter_name_eq_nil hname]

/-- **Any pages** are counted. -/
theorem addPages_map (done more : List Table) :
    addPages (rowsOf done) ((done.flatMap Table.names).eraseDups.map (entryOf done)) more =
      ((done ++ more).flatMap Table.names).eraseDups.map (entryOf (done ++ more)) := by
  induction more generalizing done with
  | nil => rw [addPages, List.append_nil]
  | cons table more ih =>
    have hrows : rowsOf done + table.rowCount = rowsOf (done ++ [table]) := by
      simp [rowsOf]
    rw [addPages, addPage_map, hrows, ih (done ++ [table]), List.append_assoc,
      List.singleton_append]

/-- **The entries of a summary**: one for each name of a column, in the order in which the names
first occur. -/
theorem entries_eq (tables : List Table) :
    entries tables = (tables.flatMap Table.names).eraseDups.map (entryOf tables) :=
  addPages_map [] tables

/-! ## Missing cells and rows without a value -/

/-- The rows of a page in which no column of a name holds a value. -/
def rowsWithout (name : String) (table : Table) : Nat :=
  (List.range table.rowCount).countP fun row =>
    ∀ column ∈ named name table, column.MissingAt row

/-- Under this name the page has at most one column, or only columns without a missing cell. -/
def CountsRows (name : String) (table : Table) : Prop :=
  (named name table).length ≤ 1 ∨ ∀ column ∈ named name table, column.missingCount = 0

theorem missingCount_eq_countP (column : Column) :
    column.missingCount = (List.range column.size).countP (column.MissingAt ·) := by
  have hcells : (List.range column.size).map (column.cells[·]?) = column.cells.toList.map some := by
    apply List.ext_getElem
    · simp [Column.size]
    · intro row hrow hrow'
      simp [Column.size] at hrow
      simp [hrow]
  have hmissing : (List.range column.size).countP (column.MissingAt ·) =
      ((List.range column.size).map (column.cells[·]?)).countP (· = some .missing) := by
    rw [List.countP_map]
    rfl
  rw [hmissing, hcells, List.countP_map, Column.missingCount, ← Array.countP_toList]
  apply List.countP_congr
  intro cell _
  simp [Cell.isMissing_iff]

section

variable {rows : Nat} {columns : List Column} {column : Column}

/-- A row without a value is a missing cell of each of the columns. -/
theorem countP_missing_le (hsize : Table.AllOfSize rows columns) (hcolumn : column ∈ columns) :
    (List.range rows).countP (fun row => ∀ column ∈ columns, column.MissingAt row) ≤
      column.missingCount := by
  rw [missingCount_eq_countP, hsize column hcolumn]
  apply List.countP_mono_left
  intro row _ hall
  exact decide_eq_true (of_decide_eq_true hall column hcolumn)

theorem countP_missing_le_sum (hsize : Table.AllOfSize rows columns) (hcolumns : columns ≠ []) :
    (List.range rows).countP (fun row => ∀ column ∈ columns, column.MissingAt row) ≤
      (columns.map Column.missingCount).sum := by
  obtain ⟨column, columns, rfl⟩ := List.exists_cons_of_ne_nil hcolumns
  rw [List.map_cons, List.sum_cons]
  exact (countP_missing_le hsize List.mem_cons_self).trans (Nat.le_add_right _ _)

/-- **Two columns of a name** count a row without a value twice, and a row with one value once. -/
theorem sum_eq_countP_missing_iff (hsize : Table.AllOfSize rows columns) (hcolumns : columns ≠ []) :
    (columns.map Column.missingCount).sum =
        (List.range rows).countP (fun row => ∀ column ∈ columns, column.MissingAt row) ↔
      columns.length ≤ 1 ∨ ∀ column ∈ columns, column.missingCount = 0 := by
  match columns with
  | [] => exact absurd rfl hcolumns
  | [column] =>
    rw [List.map_singleton, List.sum_singleton, missingCount_eq_countP,
      hsize column List.mem_cons_self]
    simp
  | column :: other :: columns =>
    -- each of the two columns counts every row without a value
    have hcolumn := countP_missing_le hsize List.mem_cons_self
    have hother := countP_missing_le hsize (List.mem_cons_of_mem column List.mem_cons_self)
    have hzero : (∀ c ∈ column :: other :: columns, c.missingCount = 0) ↔
        ((column :: other :: columns).map Column.missingCount).sum = 0 := by
      rw [List.sum_eq_zero_iff_forall_eq_nat, List.forall_mem_map]
    rw [hzero]
    simp only [List.map_cons, List.sum_cons, List.length_cons] at hcolumn hother ⊢
    omega

end

variable {table : Table}

theorem named_ne_nil (h : name ∈ table.names) : named name table ≠ [] := by
  obtain ⟨column, hcolumn, hname⟩ := List.mem_map.1 h
  exact List.ne_nil_of_mem (List.mem_filter.2 ⟨hcolumn, decide_eq_true hname⟩)

theorem allOfSize_named (h : table.IsPage) : Table.AllOfSize table.rowCount (named name table) :=
  fun column hcolumn => h.allOfSize column (List.mem_of_mem_filter hcolumn)

theorem rowsWithout_of_not_mem (h : name ∉ table.names) :
    rowsWithout name table = table.rowCount := by
  rw [rowsWithout, named, filter_name_eq_nil h]
  simp

/-- What a page adds to a missing count is at least the number of its rows without a value. -/
theorem rowsWithout_le_misses (h : table.IsPage) : rowsWithout name table ≤ misses name table := by
  unfold misses
  split
  · rename_i hname
    exact countP_missing_le_sum (allOfSize_named h) (named_ne_nil hname)
  · rename_i hname
    exact (rowsWithout_of_not_mem hname).le

/-- It is this number just if the page counts rows. -/
theorem misses_eq_iff (h : table.IsPage) :
    misses name table = rowsWithout name table ↔ CountsRows name table := by
  unfold misses
  split
  · rename_i hname
    exact sum_eq_countP_missing_iff (allOfSize_named h) (named_ne_nil hname)
  · rename_i hname
    have hrows : CountsRows name table := by
      rw [CountsRows, named, filter_name_eq_nil hname]
      exact .inl (Nat.zero_le 1)
    simp only [rowsWithout_of_not_mem hname, hrows]

theorem rowsWithout_le_rowCount (name : String) (table : Table) :
    rowsWithout name table ≤ table.rowCount := by
  have hle : rowsWithout name table ≤ (List.range table.rowCount).length := List.countP_le_length
  rwa [List.length_range] at hle

/-! ## All pages -/

theorem sum_rowsWithout_le_sum_misses (h : ∀ table ∈ tables, table.IsPage) :
    (tables.map (rowsWithout name)).sum ≤ (tables.map (misses name)).sum := by
  induction tables with
  | nil => exact le_rfl
  | cons table tables ih =>
    obtain ⟨htable, htables⟩ := List.forall_mem_cons.1 h
    exact Nat.add_le_add (rowsWithout_le_misses htable) (ih htables)

theorem sum_misses_eq_iff (h : ∀ table ∈ tables, table.IsPage) :
    (tables.map (misses name)).sum = (tables.map (rowsWithout name)).sum ↔
      ∀ table ∈ tables, CountsRows name table := by
  induction tables with
  | nil => simp
  | cons table tables ih =>
    obtain ⟨htable, htables⟩ := List.forall_mem_cons.1 h
    have hle : rowsWithout name table ≤ misses name table := rowsWithout_le_misses htable
    have hsums : (tables.map (rowsWithout name)).sum ≤ (tables.map (misses name)).sum :=
      sum_rowsWithout_le_sum_misses htables
    rw [List.forall_mem_cons, ← misses_eq_iff htable, ← ih htables, List.map_cons, List.map_cons,
      List.sum_cons, List.sum_cons]
    omega

theorem sum_rowsWithout_le_rowsOf (name : String) (tables : List Table) :
    (tables.map (rowsWithout name)).sum ≤ rowsOf tables := by
  induction tables with
  | nil => exact le_rfl
  | cons table tables ih => exact Nat.add_le_add (rowsWithout_le_rowCount name table) ih

/-- **What the missing counts of a summary are.**  Each name of a column in any page is listed once,
in the order in which the names first occur. Its count is that of the missing cells of its columns,
and of all rows of a page without such a column. That is no less than the number of rows in which no
column of the name holds a value. It is this number if and only if no page has several columns of the
name and a missing cell in one of them, and then it is at most the number of all rows. -/
theorem missing_counts_rows (h : ∀ table ∈ tables, table.IsPage) :
    (entries tables).map Entry.name = (tables.flatMap Table.names).eraseDups ∧
    ((entries tables).map Entry.name).Nodup ∧
    ∀ entry ∈ entries tables,
      entry.missing = (tables.map (misses entry.name)).sum ∧
      (tables.map (rowsWithout entry.name)).sum ≤ entry.missing ∧
      (entry.missing = (tables.map (rowsWithout entry.name)).sum ↔
        ∀ table ∈ tables, CountsRows entry.name table) ∧
      ((∀ table ∈ tables, CountsRows entry.name table) → entry.missing ≤ rowsOf tables) := by
  have hnames : (entries tables).map Entry.name = (tables.flatMap Table.names).eraseDups := by
    rw [entries_eq, List.map_map]
    exact List.map_id _
  refine ⟨hnames, hnames ▸ nodup_eraseDups _, fun entry hentry => ?_⟩
  rw [entries_eq] at hentry
  obtain ⟨name, -, rfl⟩ := List.mem_map.1 hentry
  refine ⟨rfl, sum_rowsWithout_le_sum_misses h, sum_misses_eq_iff h, fun hrows => ?_⟩
  calc (entryOf tables name).missing
      _ = (tables.map (rowsWithout name)).sum := (sum_misses_eq_iff h).2 hrows
      _ ≤ rowsOf tables := sum_rowsWithout_le_rowsOf name tables

/-- Two columns of a name without a missing cell in the first page, none in the second. -/
theorem missing_counts_rows_doubled :
    ∃ first second : Table,
      ((Source.queue [[("a", .scalar (.int32 1)), ("a", .scalar (.bool true))]]).flatten
        Options.default 1).1 = .ok first ∧
      ((Source.queue [[("b", .null)]]).flatten Options.default 1).1 = .ok second ∧
      (∀ table ∈ [first, second], table.IsPage) ∧
      (entries [first, second]).map Entry.name = ["a", "b"] ∧
      ∃ entry ∈ entries [first, second], entry.name = "a" ∧
        entry.missing = rowsWithout "a" first + rowsWithout "a" second ∧
        entry.missing ≤ rowsOf [first, second] := by
  obtain ⟨first, hfirst⟩ : ∃ first : Table, first = ⟨[⟨"a", .int32, #[.int32 1]⟩,
      ⟨"a", .bool, #[.bool true]⟩], 1, []⟩ := ⟨_, rfl⟩
  obtain ⟨second, hsecond⟩ : ∃ second : Table, second = ⟨[⟨"b", .bool, #[.missing]⟩], 1,
      [.nullDefaultedToBool "b" 0]⟩ := ⟨_, rfl⟩
  have hfirstPage : ((Source.queue [[("a", .scalar (.int32 1)),
      ("a", .scalar (.bool true))]]).flatten Options.default 1).1 = .ok first := by
    rw [hfirst]
    with_unfolding_all rfl
  have hsecondPage : ((Source.queue [[("b", .null)]]).flatten Options.default 1).1 =
      .ok second := by
    rw [hsecond]
    with_unfolding_all rfl
  have hpages : ∀ table ∈ [first, second], table.IsPage := by
    rw [List.forall_mem_cons, List.forall_mem_singleton]
    exact ⟨⟨_, _, _, hfirstPage⟩, ⟨_, _, _, hsecondPage⟩⟩
  have hrows : ∀ table ∈ [first, second], CountsRows "a" table := by
    rw [List.forall_mem_cons, List.forall_mem_singleton, hfirst, hsecond]
    exact ⟨.inr (by decide), .inl (by decide)⟩
  obtain ⟨hnames, -, hentries⟩ := missing_counts_rows hpages
  obtain ⟨entry, hentry, hname⟩ : ∃ entry ∈ entries [first, second], entry.name = "a" := by
    rw [← List.mem_map, hnames, hfirst, hsecond]
    decide
  obtain ⟨-, -, hmissing, hle⟩ := hentries entry hentry
  rw [hname] at hmissing hle
  refine ⟨first, second, hfirstPage, hsecondPage, hpages, ?_, entry, hentry, hname,
    hmissing.2 hrows, hle hrows⟩
  rw [hnames, hfirst, hsecond]
  decide

/-- **Fields in changing order.**  Of three documents one has no field `a`. In one page the name has
two columns, which miss four cells between them, one more than there are rows; in pages of one row
each, the summary of the same documents says one. -/
theorem reordered_fields_exceed_rows :
    ∃ (docs : List Document) (table : Table) (single : List Table),
      docs = [[("a", .scalar (.int32 1)), ("b", .scalar (.int32 1))],
        [("b", .scalar (.int32 2)), ("a", .scalar (.int32 2))], [("b", .scalar (.int32 3))]] ∧
      (Pages.ofSource Options.default 3 (Source.queue docs)).all = .ok [table] ∧
      (Pages.ofSource Options.default 1 (Source.queue docs)).all = .ok single ∧
      rowsOf [table] = 3 ∧ rowsWithout "a" table = 1 ∧
      entries [table] = [⟨"a", [.int32], 4⟩, ⟨"b", [.int32], 0⟩] ∧
      entries single = [⟨"a", [.int32], 1⟩, ⟨"b", [.int32], 0⟩] := by
  refine ⟨_, ⟨[⟨"a", .int32, #[.int32 1, .missing, .missing]⟩,
      ⟨"b", .int32, #[.int32 1, .int32 2, .int32 3]⟩,
      ⟨"a", .int32, #[.missing, .int32 2, .missing]⟩], 3, []⟩,
    [⟨[⟨"a", .int32, #[.int32 1]⟩, ⟨"b", .int32, #[.int32 1]⟩], 1, []⟩,
      ⟨[⟨"b", .int32, #[.int32 2]⟩, ⟨"a", .int32, #[.int32 2]⟩], 1, []⟩,
      ⟨[⟨"b", .int32, #[.int32 3]⟩], 1, []⟩], rfl, ?_, ?_, rfl, ?_, ?_, ?_⟩
  · with_unfolding_all rfl
  · with_unfolding_all rfl
  · decide
  · decide
  · decide

end DocTable.Summary

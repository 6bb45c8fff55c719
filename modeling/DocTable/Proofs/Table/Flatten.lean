import DocTable.Proofs.Source.Items
import DocTable.Proofs.Table.Row
import Mathlib.Order.Fin.Tuple

/-!
# Rows and documents

* `Table.IsTableOf` — the invariant of filling a table: each document so far has its row.
* `IsTableOf.append`, `IsTableOf.foldlM` — one more document, and a whole run, keep it.
* `Source.isTableOf_of_flatten` — a page of any source is the outcome of such a run.
* `flatten_keeps_every_field` — in the table of a page no field is lost, doubled, moved to another
  row or put in another order.
-/

set_option autoImplicit false

namespace DocTable

/-! ## What a column says about a field -/

instance (row : Nat) (column : Column) : Decidable (column.MissingAt row) :=
  inferInstanceAs (Decidable (column.cells[row]? = some .missing))

/-- In this row the column holds a field: it has its name and, unless the field is null, its value,
converted to the type of the column. -/
structure Column.Holds (options : Options) (row : Nat) (column : Column)
    (field : String × Value) : Prop where
  name_eq : column.name = field.1
  missing_iff : column.MissingAt row ↔ field.2 = .null
  converted : ∃ cell, column.cells[row]? = some cell ∧
    (Cell.ofValue options field.2).StoredAs column.type cell
  /-- Only a text can be the result of more than one conversion. -/
  direct : column.type ≠ .string →
    column.cells[row]? = (Cell.ofValue options field.2).convert? column.type
  unchanged : column.type = (Cell.ofValue options field.2).type →
    column.cells[row]? = some (Cell.ofValue options field.2)
  whole : (Cell.ofValue options field.2).type = .list → column.cells[row]? = some (.list field.2)

theorem Cell.ofValue_eq_missing {options : Options} {value : Value} :
    ofValue options value = missing ↔ value = .null := by
  cases value with
  | scalar s => cases s <;> simp [ofValue, ofScalar] <;> split <;> simp
  | array items => simp [ofValue]
  | document fields => simp [ofValue]

theorem Cell.ofValue_of_type_list {options : Options} {value : Value}
    (h : (ofValue options value).type = .list) : ofValue options value = list value := by
  cases value with
  | scalar s =>
    cases s <;> simp only [ofValue, ofScalar] at h ⊢ <;> try cases h
    all_goals
      split at h <;> cases h
  | array items => rfl
  | document fields => rfl

theorem Column.Keeps.holds {options : Options} {row : Nat} {column : Column}
    {field : String × Value} (h : column.Keeps options row field) :
    column.Holds options row field := by
  obtain ⟨hname, cell, hcell, hstored⟩ := h
  refine ⟨hname, ?_, ⟨cell, hcell, hstored⟩, ?_, ?_, ?_⟩
  · rw [MissingAt, hcell, Option.some.injEq, hstored.missing_iff, Cell.ofValue_eq_missing]
  · intro htype
    rw [hcell, hstored.convert?_eq htype]
  · intro htype
    rw [hcell, hstored.eq_of_type_eq htype]
  · intro hlist
    rw [Cell.ofValue_of_type_list hlist] at hstored
    rw [hcell, hstored.eq_list.2]

namespace Table.RowOf

/-! ## Where the fields of a row are -/

variable {options : Options} {row : Nat} {columns : List Column}
  {fields : List (String × Value)}

/-- Each field of a row has a column of its own, from left to right. -/
theorem exists_hits (h : RowOf options row columns fields) :
    ∃ hit : Fin fields.length → Fin columns.length, StrictMono hit ∧
      (∀ i, (columns.get (hit i)).Holds options row (fields.get i)) ∧
      ∀ j, (∀ i, hit i ≠ j) → (columns.get j).MissingAt row := by
  induction h with
  | nil => exact ⟨id, strictMono_id, fun i => i.elim0, fun j => j.elim0⟩
  | @skip column columns fields hmissing _ ih =>
    obtain ⟨hit, hmono, hholds, hrest⟩ := ih
    refine ⟨fun i => (hit i).succ, fun i j hij => Fin.succ_lt_succ_iff.2 (hmono hij), hholds, ?_⟩
    intro j hj
    cases j using Fin.cases with
    | zero => exact hmissing
    | succ j => exact hrest j fun i hi => hj i (congrArg Fin.succ hi)
  | @hit column columns field fields hkeeps _ ih =>
    obtain ⟨hit, hmono, hholds, hrest⟩ := ih
    refine ⟨Fin.cons 0 fun i => (hit i).succ, ?_, ?_, ?_⟩
    · refine Fin.strictMono_cons.2 ⟨fun j => Fin.succ_pos _, ?_⟩
      exact fun i j hij => Fin.succ_lt_succ_iff.2 (hmono hij)
    · intro i
      cases i using Fin.cases with
      | zero => exact hkeeps.holds
      | succ i => exact hholds i
    · intro j hj
      cases j using Fin.cases with
      | zero => exact absurd rfl (hj 0)
      | succ j => exact hrest j fun i hi => hj i.succ (congrArg Fin.succ hi)

/-- Read from left to right, the cells that are not missing are the fields that are not null. -/
theorem forall₂_filter (h : RowOf options row columns fields) :
    List.Forall₂ (Column.Holds options row) (columns.filter fun column => ¬ column.MissingAt row)
      (fields.filter fun field => field.2 ≠ .null) := by
  induction h with
  | nil => exact .nil
  | skip hmissing _ ih =>
    rw [List.filter_cons_of_neg (by simpa using hmissing)]
    exact ih
  | @hit column columns field fields hkeeps _ ih =>
    have hholds := hkeeps.holds
    by_cases hnull : field.2 = .null
    · rw [List.filter_cons_of_neg (by simpa using hholds.missing_iff.2 hnull),
        List.filter_cons_of_neg (by simpa using hnull)]
      exact ih
    · rw [List.filter_cons_of_pos (by simpa using fun h => hnull (hholds.missing_iff.1 h)),
        List.filter_cons_of_pos (by simpa using hnull)]
      exact .cons hholds ih

end Table.RowOf

/-! ## Finishing a table -/

theorem Column.shrinkTo_size (column : Column) : column.shrinkTo column.size = column := by
  simp [shrinkTo, size]

/-- Where no column is longer than the table, there is nothing to cut. -/
theorem Table.finish_eq_self {table : Table} (h : AllOfSize table.rowCount table.columns) :
    table.finish = table := by
  have hcolumns : table.columns.map (·.shrinkTo table.rowCount) = table.columns.map id := by
    apply List.map_congr_left
    intro column hcolumn
    rw [← h column hcolumn]
    exact column.shrinkTo_size
  unfold finish
  rw [hcolumns, List.map_id]

namespace Table

/-! ## Filling a table -/

/-- The table has a row for each of the documents, in order, and no other. -/
structure IsTableOf (options : Options) (table : Table) (docs : List Document) : Prop where
  rowCount_eq : table.rowCount = docs.length
  allOfSize : AllOfSize table.rowCount table.columns
  rowOf : ∀ (row : Nat) (doc : Document), docs[row]? = some doc →
    RowOf options row table.columns doc

variable {options : Options} {table result : Table}

theorem isTableOf_empty : empty.IsTableOf options [] :=
  ⟨rfl, nofun, fun row doc h => by simp at h⟩

/-- The row of the last document is behind those of the others. -/
theorem row_of_concat {docs : List Document} {doc old : Document} {row : Nat}
    (h : (docs ++ [doc])[row]? = some old) :
    row < docs.length ∧ docs[row]? = some old ∨ row = docs.length ∧ old = doc := by
  by_cases hlt : row < docs.length
  · rw [List.getElem?_append_left hlt] at h
    exact .inl ⟨hlt, h⟩
  · have hlast : row = docs.length := by
      have hlength := (List.getElem?_eq_some_iff.1 h).1
      rw [List.length_append, List.length_singleton] at hlength
      omega
    rw [hlast, List.getElem?_concat_length] at h
    exact .inr ⟨hlast, (Option.some.inj h).symm⟩

/-- **One more document** gets one more row. -/
theorem IsTableOf.append {docs : List Document} {doc : Document}
    (h : table.IsTableOf options docs) (hresult : table.append options doc = .ok result) :
    result.IsTableOf options (docs ++ [doc]) := by
  obtain ⟨⟨columns, warnings⟩, hplace, hresult⟩ := Steps.bind_eq_ok.1 hresult
  cases hresult
  have hplaced := placed_of_place hplace
  refine ⟨?_, hplaced.allOfSize h.allOfSize, fun row old hold => ?_⟩
  · rw [List.length_append, ← h.rowCount_eq, List.length_singleton]
  · rcases row_of_concat hold with ⟨hlt, hold⟩ | ⟨rfl, rfl⟩
    · exact (h.rowOf row old hold).placed hplaced (by rwa [h.rowCount_eq])
    · rw [← h.rowCount_eq]
      exact hplaced.rowOf h.allOfSize

/-- **A run** over documents gives each of them its row. -/
theorem IsTableOf.foldlM {docs rest : List Document} (h : table.IsTableOf options docs)
    (hresult : rest.foldlM (Table.append options) table = .ok result) :
    result.IsTableOf options (docs ++ rest) := by
  apply Steps.foldlM_keeps (fun done table => table.IsTableOf options done) _ docs h hresult
  intro done table doc next htable hnext
  exact htable.append hnext

theorem isTableOf_of_foldlM {docs : List Document}
    (h : docs.foldlM (append options) empty = .ok table) : table.IsTableOf options docs :=
  isTableOf_empty.foldlM h

/-- The table is a page of some source. -/
def IsPage (table : Table) : Prop :=
  ∃ (options : Options) (source : Source) (maxRows : Nat),
    (source.flatten options maxRows).1 = .ok table

end Table

namespace Source

variable {options : Options} {maxRows : Nat} {docs : List Document} {table : Table}

/-- The items of a page that is made are documents, and finishing their table changes nothing. -/
theorem foldlM_of_flatten {source : Source} (h : (source.flatten options maxRows).1 = .ok table) :
    ∃ docs : List Document, source.items maxRows = docs.map .ok ∧
      docs.foldlM (Table.append options) Table.empty = .ok table := by
  obtain ⟨docs, filled, hitems, hfilled, rfl⟩ := docs_of_flatten h
  refine ⟨docs, hitems, ?_⟩
  rwa [Table.finish_eq_self (Table.isTableOf_of_foldlM hfilled).allOfSize]

/-- A page has a row for each of its items, and they are documents. -/
theorem isTableOf_of_flatten {source : Source}
    (h : (source.flatten options maxRows).1 = .ok table) :
    ∃ docs : List Document, source.items maxRows = docs.map .ok ∧ table.IsTableOf options docs := by
  obtain ⟨docs, hitems, htable⟩ := foldlM_of_flatten h
  exact ⟨docs, hitems, Table.isTableOf_of_foldlM htable⟩

theorem isTableOf_flatten (h : ((queue docs).flatten options maxRows).1 = .ok table) :
    table.IsTableOf options (docs.take maxRows) := by
  obtain ⟨taken, hitems, htable⟩ := isTableOf_of_flatten h
  rw [items_queue] at hitems
  rwa [List.map_injective_iff.2 (fun _ _ => Except.ok.inj) hitems]

/-- **No field is lost.**  Each row of a page is that of the document in its place: its fields go to
columns of their names, from left to right, every other column is missing in this row, and so the
cells that are there are the fields that are not null. -/
theorem flatten_keeps_every_field
    (h : ((queue docs).flatten options maxRows).1 = .ok table) :
    ∀ row < table.rowCount, ∃ doc : Document, docs[row]? = some doc ∧
      (∃ hit : Fin doc.length → Fin table.columns.length, StrictMono hit ∧
        (∀ i, (table.columns.get (hit i)).Holds options row (doc.get i)) ∧
        ∀ j, (∀ i, hit i ≠ j) → (table.columns.get j).MissingAt row) ∧
      List.Forall₂ (Column.Holds options row)
        (table.columns.filter fun column => ¬ column.MissingAt row)
        (doc.filter fun field => field.2 ≠ .null) := by
  intro row hrow
  have htable := isTableOf_flatten h
  rw [htable.rowCount_eq] at hrow
  have hdoc := List.getElem?_eq_getElem hrow
  refine ⟨_, ?_, (htable.rowOf row _ hdoc).exists_hits, (htable.rowOf row _ hdoc).forall₂_filter⟩
  rw [List.length_take] at hrow
  rw [← hdoc, List.getElem?_take_of_lt (by omega)]

/-- A field that comes in another order starts a second column of its name, and a text widens the
first one. -/
theorem keeps_reordered_fields :
    ∃ (docs : List Document) (table : Table),
      docs = [[("a", .scalar (.int32 1)), ("b", .null)],
        [("b", .scalar (.bool true)), ("a", .scalar (.int32 2))],
        [("a", .scalar (.string "x"))]] ∧
      table = ⟨[⟨"a", .string, #[.string "1", .missing, .string "x"]⟩,
        ⟨"b", .bool, #[.missing, .bool true, .missing]⟩,
        ⟨"a", .int32, #[.missing, .int32 2, .missing]⟩], 3, [.nullDefaultedToBool "b" 0]⟩ ∧
      ((queue docs).flatten Options.default 3).1 = .ok table ∧ 1 < table.rowCount ∧
      ∃ doc : Document, docs[1]? = some doc ∧
        (∃ hit : Fin doc.length → Fin table.columns.length, StrictMono hit ∧
          (∀ i, (table.columns.get (hit i)).Holds Options.default 1 (doc.get i)) ∧
          ∀ j, (∀ i, hit i ≠ j) → (table.columns.get j).MissingAt 1) ∧
        List.Forall₂ (Column.Holds Options.default 1)
          (table.columns.filter fun column => ¬ column.MissingAt 1)
          (doc.filter fun field => field.2 ≠ .null) :=
  ⟨_, _, rfl, rfl, by with_unfolding_all rfl, by decide,
    @flatten_keeps_every_field _ 3 _ _ (by with_unfolding_all rfl) 1 (by decide)⟩

end Source

namespace Table

variable {table : Table}

/-- A page has a row for each of some documents. -/
theorem IsPage.exists_docs (h : table.IsPage) :
    ∃ (options : Options) (docs : List Document), table.IsTableOf options docs := by
  obtain ⟨options, source, maxRows, htable⟩ := h
  obtain ⟨docs, -, hdocs⟩ := Source.isTableOf_of_flatten htable
  exact ⟨options, docs, hdocs⟩

theorem IsPage.allOfSize (h : table.IsPage) : AllOfSize table.rowCount table.columns := by
  obtain ⟨options, docs, hdocs⟩ := h.exists_docs
  exact hdocs.allOfSize

end Table

end DocTable

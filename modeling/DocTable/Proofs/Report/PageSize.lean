import DocTable.Proofs.Report.Rows
import DocTable.Proofs.Source.Pages
import DocTable.Proofs.Table.Steady

/-!
# JSON and the size of pages

* `Document.rowObject` — what the object of a row is where no value is converted.
* `objects_of_steady` — the objects of a table whose types do not drift are told by its documents
  alone, whatever columns they were put in.
* `objects_of_chunks` — so are those of any number of such tables.
* `json_same_for_any_page_size` — and so is the text that is written.
-/

set_option autoImplicit false

namespace DocTable

/-- The object of a document whose values are kept as they are: a repeated name has one member, where
it is first and with what it is last. -/
def Document.rowObject (options : Options) (doc : Document) : Json :=
  .objectOf ((doc.kept options).map fun field => (field.1, field.2.toJson))

namespace Rows

variable {options : Options} {kind : String → ColumnType} {table : Table} {docs : List Document}

/-- The object of a row whose document keeps to the types of its names. -/
theorem membersAt_of_steady {row : Nat} {doc : Document}
    (hrow : Table.RowOf options row table.columns doc)
    (hcolumns : Table.AllSettled kind table.columns) (hdoc : Steady options kind doc) :
    Json.object (membersAt table row) = doc.rowObject options := by
  have hvalues := hrow.values_eq hcolumns hdoc
  have hmembers : (table.heldAt row).map (fun held => (held.1.name, held.2.toJson)) =
      (doc.kept options).map fun field => (field.1, field.2.toJson) := by
    rw [← hvalues, Table.heldAt, List.map_filterMap, List.map_filterMap]
    simp only [Option.map_map, Function.comp_def]
  unfold membersAt Document.rowObject Json.objectOf
  rw [hmembers]

/-- A table whose types do not drift has the objects of its documents. -/
theorem objects_of_steady (h : docs.foldlM (Table.append options) Table.empty = .ok table)
    (hdocs : Steady options kind docs.flatten) :
    objects table = docs.map (Document.rowObject options) := by
  have htable := Table.isTableOf_of_foldlM h
  have hcolumns := Table.settled_of_foldlM hdocs h
  rw [objects_eq_membersAt htable.allOfSize, htable.rowCount_eq, List.map_map]
  apply List.ext_getElem
  · simp
  · intro row _ hrow
    rw [List.length_map] at hrow
    have hdoc : Steady options kind docs[row] := fun field hfield =>
      hdocs field (List.mem_flatten_of_mem (List.getElem_mem hrow) hfield)
    have hrowOf := htable.rowOf row docs[row] (List.getElem?_eq_getElem hrow)
    simp only [List.getElem_map, List.getElem_range, Function.comp_apply]
    exact membersAt_of_steady hrowOf hcolumns hdoc

/-- **Any pieces** of the documents have the objects of the documents. -/
theorem objects_of_chunks {chunks : List (List Document)} {tables : List Table}
    (h : Pages.AreTablesOf options chunks tables)
    (hdocs : Steady options kind chunks.flatten.flatten) :
    tables.flatMap objects = chunks.flatten.map (Document.rowObject options) := by
  induction h with
  | nil => rfl
  | cons htable _ ih =>
    rw [List.flatten_cons, List.flatten_append] at hdocs
    obtain ⟨hchunk, hrest⟩ := List.forall_mem_append.1 hdocs
    rw [List.flatMap_cons, List.flatten_cons, List.map_append, objects_of_steady htable hchunk,
      ih hrest]

/-- All pages of a source have the objects of its documents. -/
theorem ofPages_of_all {source : Source} {size : Nat} {tables : List Table}
    (hdocs : SameClasses options docs) (hsource : source.Delivers docs)
    (h : (Pages.ofSource options size source).all = .ok tables) :
    ofPages tables = .array (docs.map (Document.rowObject options)) := by
  obtain ⟨chunks, rfl, htables⟩ := Pages.chunks_of_all hsource h
  unfold ofPages
  rw [objects_of_chunks htables hdocs.steady]

/-- **The size of the pages does not show in JSON** where types do not drift: the same documents give
the same text, from whichever sources and in pages of whatever sizes they are read. -/
theorem json_same_for_any_page_size {source other : Source} {size otherSize : Nat}
    {tables otherTables : List Table} (hdocs : SameClasses options docs)
    (hsource : source.Delivers docs) (hother : other.Delivers docs)
    (h : (Pages.ofSource options size source).all = .ok tables)
    (hagain : (Pages.ofSource options otherSize other).all = .ok otherTables) (pretty : Bool) :
    (Style.json pretty).pages tables = (Style.json pretty).pages otherTables ∧
      (Style.json pretty).pages tables =
        .ok (.text (Style.jsonText pretty (.array (docs.map (Document.rowObject options))))) := by
  have htables := ofPages_of_all hdocs hsource h
  have hothers := ofPages_of_all hdocs hother hagain
  simp only [Style.pages, htables, hothers, and_self]

/-- Documents with a null in front, fields in another order and a repeated name, one a page and all
on one page: the tables differ in their columns, the texts do not differ. -/
theorem json_same_for_reordered_fields :
    ∃ (docs : List Document) (single all : List Table),
      docs = [[("a", .null), ("b", .scalar (.int32 1))],
        [("b", .scalar (.int32 2)), ("a", .scalar (.string "x")), ("b", .null)],
        [("a", .scalar (.string "y")), ("a", .scalar (.string "z"))]] ∧
      SameClasses Options.default docs ∧
      (Pages.ofSource Options.default 1 (.queue docs)).all = .ok single ∧
      (Pages.ofSource Options.default 5 (.queue docs)).all = .ok all ∧
      single.map Table.names = [["a", "b"], ["b", "a", "b"], ["a", "a"]] ∧
      all.map Table.names = [["a", "b", "a", "b"]] ∧
      (Style.json true).pages single = (Style.json true).pages all := by
  have hdocs : SameClasses Options.default [[("a", .null), ("b", .scalar (.int32 1))],
      [("b", .scalar (.int32 2)), ("a", .scalar (.string "x")), ("b", .null)],
      [("a", .scalar (.string "y")), ("a", .scalar (.string "z"))]] := by decide
  have hsame := @json_same_for_any_page_size _ _ _ _ 1 5 _ _ hdocs (Source.delivers_queue _)
    (Source.delivers_queue _) (by with_unfolding_all rfl) (by with_unfolding_all rfl) true
  exact ⟨_, _, _, rfl, hdocs, by with_unfolding_all rfl, by with_unfolding_all rfl,
    by with_unfolding_all rfl, by with_unfolding_all rfl, hsame.1⟩

end Rows

end DocTable

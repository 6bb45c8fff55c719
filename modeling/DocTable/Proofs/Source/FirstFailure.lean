import DocTable.Proofs.Source.Items
import DocTable.Proofs.Table.Rectangle
import DocTable.Proofs.Table.Typing

/-!
# The first failure of a page

A page fails at the first item that is an error or holds a value that its column does not take.

* `Table.Cursor.step_eq_error_iff` — a field fails exactly if the next column of its name does not
  take its cell. A field without such a column starts one, and never fails.
* `FirstFailure` — the first item that gets no row, and its error.
* `Source.after` — what is left of a source behind some reads.
* `fill_of_refused_item`, `fill_of_all_items` — how far a source is read where an item is refused, and
  where none is.
* `flatten_reports_first_failure` — the error of a page is that of its first failure, and no item
  behind it is taken.
-/

set_option autoImplicit false

namespace DocTable

/-! ## Fields that fail -/

namespace Table

variable {options : Options} {row : Nat} {table : Table} {error : Error}

/-- The forward search finds the first column of a name. -/
theorem find?_name_eq (name : String) (columns : List Column) :
    columns.find? (·.name == name) = (splitAtName? name columns).map fun split => split.2.1 := by
  induction columns with
  | nil => rfl
  | cons column columns ih =>
    rw [splitAtName?]
    by_cases hname : column.name = name
    · rw [List.find?_cons_of_pos (by simpa using hname), if_pos hname]
      rfl
    · rw [List.find?_cons_of_neg (by simpa using hname), if_neg hname, ih, Option.map_map]
      rfl

/-- A value is not stored exactly if the column does not take its cell; the error tells the type of
the column as it was, and the kind of the value as it came. -/
theorem store_eq_error_iff {column : Column} {value : Value} :
    store options row column value = .error error ↔
      ¬ (Cell.ofValue options value).Joins column.type ∧
        error = .heterogeneousColumn column.name row column.type value.kind := by
  unfold store
  by_cases hjoins : (Cell.ofValue options value).Joins column.type
  · obtain ⟨wide, -, hinsert, -⟩ := Column.insert_of_joins hjoins
    simp [hinsert, hjoins]
  · simp [Column.insert_of_not_joins hjoins, hjoins, eq_comm]

/-- A field that starts a column does not fail. -/
theorem exists_startColumn (options : Options) (row : Nat) (name : String) (value : Value) :
    ∃ started, startColumn options row name value = .ok started := by
  obtain ⟨hinsert, -⟩ := Column.insert_startAt row name (Cell.ofValue options value)
  have hstore : store options row (Column.startAt row name (Cell.ofValue options value)) value =
      .ok (Column.started row name (Cell.ofValue options value)) := by
    simp only [store, hinsert]
  simp only [startColumn, hstore, Steps.ok_bind]
  exact ⟨_, rfl⟩

/-- **A field fails** exactly if the first column of its name from the cursor on does not take its
cell. -/
theorem Cursor.step_eq_error_iff {cursor : Cursor} {name : String} {value : Value} :
    cursor.step options row (name, value) = .error error ↔
      ∃ column, cursor.ahead.find? (·.name == name) = some column ∧
        ¬ (Cell.ofValue options value).Joins column.type ∧
        error = .heterogeneousColumn name row column.type value.kind := by
  rw [find?_name_eq]
  unfold step
  cases hsplit : splitAtName? name cursor.ahead with
  | some split =>
    obtain ⟨before, found, after⟩ := split
    obtain ⟨-, hname⟩ := splitAtName?_eq_some hsplit
    simp only [Option.map_some, Option.some.injEq, exists_eq_left']
    rw [Steps.bind_eq_error, store_eq_error_iff, hname]
    simp
  | none =>
    obtain ⟨started, hstarted⟩ := exists_startColumn options row name value
    simp [hstarted]

/-- A document gets no row exactly if one of its fields fails. -/
theorem append_eq_error_iff {doc : Document} :
    table.append options doc = .error error ↔
      doc.foldlM (Cursor.step options table.rowCount) (Cursor.start table.columns) =
        .error error := by
  rw [append_eq_foldlM, Steps.map_eq_error]

end Table

/-! ## Items that fail -/

open Table

/-- Each item before the one at `place` is a document that has its row. The item at `place` is an
error, or a document with a field that fails: those before it have their columns, and the first
column of its name from there on does not take its cell. -/
inductive FirstFailure (options : Options) (items : List (Except Error Document)) :
    (place : Nat) → Error → Prop
  | item {docs : List Document} {table : Table} {error : Error}
      {later : List (Except Error Document)} :
      items = docs.map .ok ++ .error error :: later →
      docs.foldlM (append options) empty = .ok table →
      FirstFailure options items docs.length error
  | field {docs : List Document} {table : Table} {before after : Document} {name : String}
      {value : Value} {later : List (Except Error Document)} {cursor : Cursor} {column : Column} :
      items = docs.map .ok ++ .ok (before ++ (name, value) :: after) :: later →
      docs.foldlM (append options) empty = .ok table →
      before.foldlM (Cursor.step options docs.length) (Cursor.start table.columns) = .ok cursor →
      cursor.ahead.find? (·.name == name) = some column →
      ¬ (Cell.ofValue options value).Joins column.type →
      FirstFailure options items docs.length
        (.heterogeneousColumn name docs.length column.type value.kind)

namespace FirstFailure

variable {options : Options} {items : List (Except Error Document)} {place : Nat} {error : Error}

/-- The rows so far are those of the documents before the first failure, which is refused. -/
theorem exists_refused (h : FirstFailure options items place error) :
    ∃ (docs : List Document) (table : Table) (item : Except Error Document)
      (later : List (Except Error Document)), items = docs.map .ok ++ item :: later ∧
      docs.length = place ∧
      docs.foldlM (append options) empty = .ok table ∧
      table.appendItem options item = .error error := by
  cases h with
  | item hitems htable => exact ⟨_, _, _, _, hitems, rfl, htable, rfl⟩
  | @field docs table before after name value later cursor column hitems htable hcursor hcolumn
      hjoins =>
    refine ⟨_, _, _, _, hitems, rfl, htable, ?_⟩
    have hrows := (isTableOf_of_foldlM htable).rowCount_eq
    rw [appendItem_ok, append_eq_error_iff, hrows, List.foldlM_append, hcursor, Steps.ok_bind,
      List.foldlM_cons, Cursor.step_eq_error_iff.2 ⟨column, hcolumn, hjoins, rfl⟩,
      Steps.error_bind]

/-- Where an item is refused behind documents that have their rows, it is the first failure. -/
theorem of_refused {docs : List Document} {table : Table} {item : Except Error Document}
    {later : List (Except Error Document)} (hitems : items = docs.map .ok ++ item :: later)
    (htable : docs.foldlM (append options) empty = .ok table)
    (hitem : table.appendItem options item = .error error) :
    FirstFailure options items docs.length error := by
  cases item with
  | error failure =>
    cases hitem
    exact .item hitems htable
  | ok doc =>
    have hrows := (isTableOf_of_foldlM htable).rowCount_eq
    rw [appendItem_ok, append_eq_error_iff, hrows] at hitem
    obtain ⟨before, ⟨name, value⟩, after, cursor, rfl, hcursor, hfield⟩ :=
      Steps.exists_of_foldlM_eq_error hitem
    obtain ⟨column, hcolumn, hjoins, rfl⟩ := Cursor.step_eq_error_iff.1 hfield
    exact .field hitems htable hcursor hcolumn hjoins

/-- Items that do not fill a table have a first failure. -/
theorem of_foldlM (h : items.foldlM (appendItem options) empty = .error error) :
    ∃ place, FirstFailure options items place error := by
  obtain ⟨before, item, later, table, hitems, htable, hitem⟩ :=
    Steps.exists_of_foldlM_eq_error h
  obtain ⟨docs, rfl, hdocs⟩ := Source.docs_of_foldlM htable
  exact ⟨docs.length, of_refused hitems hdocs hitem⟩

end FirstFailure

namespace Source

/-! ## What is read -/

/-- What is left of a source behind so many reads. -/
def after (source : Source) (count : Nat) : Source :=
  (source.answers (.replicate count .next)).2

@[simp] theorem after_zero (source : Source) : source.after 0 = source := rfl

theorem after_succ (source : Source) (count : Nat) :
    source.after (count + 1) = source.next.2.after count := rfl

/-- The number of the first items, as often as one cares to read on behind them. -/
theorem length_items_eq_min {count total : Nat} (source : Source) (h : count ≤ total) :
    (source.items count).length = min count (source.items total).length := by
  obtain ⟨more, rfl⟩ := Nat.exists_eq_add_of_le h
  rw [items_add count more source, List.length_take]

variable {options : Options} {source : Source} {table filled : Table} {rows : Nat} {error : Error}

theorem items_eq_cons {item : Except Error Document} {rest : List (Except Error Document)}
    (h : source.items rows = item :: rest) :
    ∃ fewer, rows = fewer + 1 ∧ source.hasMore.1 = true ∧ source.next.1 = item ∧
      source.next.2.items fewer = rest := by
  cases rows with
  | zero => cases h
  | succ fewer =>
    cases hmore : source.hasMore.1 with
    | false =>
      rw [items_of_hasMore_eq_false _ hmore] at h
      cases h
    | true =>
      rw [items_succ_of_hasMore _ hmore] at h
      obtain ⟨hitem, hrest⟩ := List.cons.inj h
      exact ⟨fewer, rfl, rfl, hitem, hrest⟩

/-- The source is read up to an item that is refused and no further. -/
theorem fill_of_refused_item {docs : List Document} {item : Except Error Document}
    {later : List (Except Error Document)}
    (hitems : source.items rows = docs.map .ok ++ item :: later)
    (hdocs : docs.foldlM (Table.append options) table = .ok filled)
    (hitem : filled.appendItem options item = .error error) :
    source.fill options rows table = (.error error, source.after (docs.length + 1)) := by
  induction docs generalizing source table rows with
  | nil =>
    cases hdocs
    obtain ⟨rows, rfl, hmore, rfl, -⟩ := items_eq_cons hitems
    rw [fill_of_refused hmore hitem]
    rfl
  | cons doc docs ih =>
    obtain ⟨rows, rfl, hmore, hnext, hrest⟩ := items_eq_cons hitems
    rw [List.foldlM_cons] at hdocs
    obtain ⟨longer, hlonger, hdocs⟩ := Steps.bind_eq_ok.1 hdocs
    have happend : table.appendItem options source.next.1 = .ok longer := by
      rw [hnext]
      exact hlonger
    rw [fill_of_appended hmore happend, ih hrest hdocs]
    rfl

/-- The source is read up to the last item if none is refused, and asked for more if there were
fewer than it might give. -/
theorem fill_of_all_items
    (h : (source.items rows).foldlM (Table.appendItem options) table = .ok filled) :
    source.fill options rows table =
      (.ok filled,
        if (source.items rows).length = rows then source.after rows
        else (source.after (source.items rows).length).hasMore.2) := by
  induction rows generalizing source table with
  | zero =>
    cases h
    rfl
  | succ rows ih =>
    cases hmore : source.hasMore.1 with
    | false =>
      rw [items_of_hasMore_eq_false _ hmore] at h ⊢
      cases h
      exact fill_of_end hmore
    | true =>
      rw [items_succ_of_hasMore _ hmore, List.foldlM_cons] at h
      obtain ⟨longer, hlonger, h⟩ := Steps.bind_eq_ok.1 h
      rw [fill_of_appended hmore hlonger, ih h, items_succ_of_hasMore _ hmore, List.length_cons]
      simp only [Nat.add_right_cancel_iff, after_succ]

/-- **A page reports its first failure**, and takes every item up to it and none behind it. Where
there is no failure, the page has a row for each of its items and takes these, as many as it may or
as there are. A page without rows is refused, and takes nothing. -/
theorem flatten_reports_first_failure (options : Options) (source : Source) :
    source.flatten options 0 = (.error .invalidPageSize, source) ∧
    ∀ maxRows, 0 < maxRows →
      (∀ place error, FirstFailure options (source.items maxRows) place error →
        source.flatten options maxRows = (.error error, source.after (place + 1))) ∧
      ((∀ place error, ¬ FirstFailure options (source.items maxRows) place error) →
        ∃ table count, table.rowCount = count ∧
          (∀ total, maxRows ≤ total → count = min maxRows (source.items total).length) ∧
          source.flatten options maxRows =
            (.ok table,
              if count = maxRows then source.after count
              else (source.after count).hasMore.2)) := by
  refine ⟨rfl, fun maxRows hpos => ⟨fun place error hfailure => ?_, fun hnone => ?_⟩⟩
  · obtain ⟨docs, table, item, later, hitems, rfl, htable, hitem⟩ := hfailure.exists_refused
    rw [flatten_of_pos hpos, fill_of_refused_item hitems htable hitem]
    rfl
  · cases hfold : (source.items maxRows).foldlM (Table.appendItem options) Table.empty with
    | error error =>
      obtain ⟨place, hfailure⟩ := FirstFailure.of_foldlM hfold
      exact absurd hfailure (hnone place error)
    | ok filled =>
      obtain ⟨docs, hitems, hdocs⟩ := docs_of_foldlM hfold
      have hrows := (isTableOf_of_foldlM hdocs).rowCount_eq
      refine ⟨filled.finish, (source.items maxRows).length, ?_, ?_, ?_⟩
      · rw [hitems, List.length_map]
        exact hrows
      · exact fun total htotal => source.length_items_eq_min htotal
      · rw [flatten_of_pos hpos, fill_of_all_items hfold]
        split
        · rename_i hfull
          rw [hfull]
          rfl
        · rfl

/-- A number of 64 bits meets a column of dates behind a field that starts a column of its own: it
is reported as the number it came as. Without it the same items make a table of two rows. -/
theorem flatten_reports_number_among_dates :
    ∃ (first second : Document) (failure : Error),
      first = [("a", .scalar (.dateTime 0))] ∧
      second = [("b", .null), ("a", .scalar (.int64 5))] ∧
      failure = .heterogeneousColumn "a" 1 .dateTime .int64 ∧ 0 < 3 ∧
      FirstFailure Options.default
        ((feed [.ok first, .ok second, .error .exhausted]).items 3) 1 failure ∧
      (feed [.ok first, .ok second, .error .exhausted]).flatten Options.default 3 =
        (.error failure, feed [.error .exhausted]) ∧
      (∀ place error, ¬ FirstFailure Options.default
        ((feed [.ok first, .ok (second.take 1)]).items 3) place error) ∧
      ∃ table, table.rowCount = 2 ∧
        (feed [.ok first, .ok (second.take 1)]).flatten Options.default 3 = (.ok table, feed []) := by
  have hfailure : FirstFailure Options.default
      ((feed [.ok [("a", .scalar (.dateTime 0))],
        .ok [("b", .null), ("a", .scalar (.int64 5))], .error .exhausted]).items 3) 1
      (.heterogeneousColumn "a" 1 .dateTime .int64) :=
    @FirstFailure.field _ _ [[("a", .scalar (.dateTime 0))]] _ [("b", .null)] [] "a"
      (.scalar (.int64 5)) [.error .exhausted] _ ⟨"a", .dateTime, #[.dateTime 0]⟩ rfl
      (by with_unfolding_all rfl) (by with_unfolding_all rfl) (by with_unfolding_all rfl)
      (by decide)
  obtain ⟨-, hfailing⟩ := flatten_reports_first_failure Options.default
    (feed [.ok [("a", .scalar (.dateTime 0))],
      .ok [("b", .null), ("a", .scalar (.int64 5))], .error .exhausted])
  obtain ⟨-, hfine⟩ := flatten_reports_first_failure Options.default
    (feed [.ok [("a", .scalar (.dateTime 0))], .ok [("b", .null)]])
  obtain ⟨hreport, hmade⟩ := hfine 3 (by decide)
  have hnone : ∀ place error, ¬ FirstFailure Options.default
      ((feed [.ok [("a", .scalar (.dateTime 0))], .ok [("b", .null)]]).items 3) place error := by
    intro place error hfirst
    have hflatten := congrArg Prod.fst (hreport place error hfirst)
    have hok : ∃ table, ((feed [.ok [("a", .scalar (.dateTime 0))], .ok [("b", .null)]]).flatten
        Options.default 3).1 = .ok table := ⟨_, by with_unfolding_all rfl⟩
    obtain ⟨table, htable⟩ := hok
    rw [htable] at hflatten
    cases hflatten
  obtain ⟨table, count, hrows, hcount, hflatten⟩ := hmade hnone
  have htwo : count = 2 := hcount 3 (by decide)
  subst htwo
  exact ⟨_, _, _, rfl, rfl, rfl, by decide, hfailure, (hfailing 3 (by decide)).1 _ _ hfailure,
    hnone, table, hrows, hflatten⟩

end Source

end DocTable

import DocTable.Proofs.Table.Rectangle
import DocTable.Report.Basic

/-!
# Delimited records are read back

* `Csv.Reading` — a reader of delimited records, one character after the other. An empty line is no
  record, and a quote stands at an end of a field or is doubled inside of one.
* `foldlM_fieldText`, `foldlM_joined`, `foldlM_recordText` — it reads a field, the fields of a record
  and a record as they were written.
* `read_flatMap_recordText` — and so any number of records, each of at least one field.
* `Csv.sheet` — the records that some pages stand for, told by the pages alone.
* `pages_read_back` — these are what is read from the text of the pages.
-/

set_option autoImplicit false

namespace DocTable.Csv

/-! ## Reading records -/

/-- Where in a text a reader of records is. -/
inductive Place where
  /-- In front of a field. -/
  | start
  /-- Inside a field without quotes. -/
  | bare
  /-- Inside a field in quotes. -/
  | quoted
  /-- Behind a quote in a field in quotes. -/
  | closed
  deriving DecidableEq, Repr

/-- What a reader has read: the field and the record that it is in, and the records before them. -/
structure Reading where
  place : Place
  field : List Char
  record : List (List Char)
  records : List (List (List Char))
  deriving Repr

namespace Reading

/-- Nothing is read yet. -/
def empty : Reading := ⟨.start, [], [], []⟩

/-- The field is complete. -/
def endField (reading : Reading) : Reading :=
  ⟨.start, [], reading.record ++ [reading.field], reading.records⟩

/-- The field and with it the record are complete. -/
def endRecord (reading : Reading) : Reading :=
  ⟨.start, [], [], reading.records ++ [reading.record ++ [reading.field]]⟩

/-- Reads one character. A quote inside a field without quotes is refused, and so is anything but a
second quote or an end behind a quote in a field with quotes. -/
def step (delimiter : Char) (reading : Reading) (c : Char) : Option Reading :=
  match reading.place with
  | .start =>
    if c = '\x22' then some { reading with place := .quoted }
    else if c = delimiter then some reading.endField
    else if c = '\n' ∨ c = '\r' then
      some (if reading.record = [] then reading else reading.endRecord)
    else some { reading with place := .bare, field := [c] }
  | .bare =>
    if c = '\x22' then none
    else if c = delimiter then some reading.endField
    else if c = '\n' ∨ c = '\r' then some reading.endRecord
    else some { reading with field := reading.field ++ [c] }
  | .quoted =>
    if c = '\x22' then some { reading with place := .closed }
    else some { reading with field := reading.field ++ [c] }
  | .closed =>
    if c = '\x22' then some { reading with place := .quoted, field := reading.field ++ [c] }
    else if c = delimiter then some reading.endField
    else if c = '\n' ∨ c = '\r' then some reading.endRecord
    else none

/-- The records of a text that ends here, unless it ends inside quotes. -/
def finish (reading : Reading) : Option (List (List (List Char))) :=
  match reading.place with
  | .start => some (if reading.record = [] then reading.records else reading.endRecord.records)
  | .bare => some reading.endRecord.records
  | .quoted => none
  | .closed => some reading.endRecord.records

end Reading

/-- The records of a text. -/
def read (delimiter : Char) (text : String) : Option (List (List String)) := do
  let reading ← text.toList.foldlM (Reading.step delimiter) Reading.empty
  let records ← reading.finish
  some (records.map (·.map String.ofList))

/-! ## Reading what was written -/

variable {delimiter : Char}

open Reading

/-- A field is written bare if it holds nothing that a reader would take for something else. -/
theorem needsQuotes_eq_false_iff {field : List Char} :
    needsQuotes delimiter field = false ↔
      ∀ c ∈ field, c ≠ delimiter ∧ c ≠ '\x22' ∧ c ≠ '\n' ∧ c ≠ '\r' := by
  simp [needsQuotes, List.any_eq_false, and_assoc]

theorem foldlM_bare {field : List Char} (h : needsQuotes delimiter field = false)
    (before : List Char) (record : List (List Char)) (records : List (List (List Char))) :
    field.foldlM (step delimiter) ⟨.bare, before, record, records⟩ =
      some ⟨.bare, before ++ field, record, records⟩ := by
  rw [needsQuotes_eq_false_iff] at h
  induction field generalizing before with
  | nil => rw [List.append_nil]; rfl
  | cons c field ih =>
    obtain ⟨⟨hdelimiter, hquote, hfeed, hreturn⟩, hfield⟩ := List.forall_mem_cons.1 h
    have hstep : step delimiter ⟨.bare, before, record, records⟩ c =
        some ⟨.bare, before ++ [c], record, records⟩ := by
      simp only [step, hquote, hdelimiter, hfeed, hreturn, or_self, if_false]
    rw [List.foldlM_cons, hstep, Option.bind_eq_bind, Option.bind_some, ih hfield,
      List.append_assoc, List.singleton_append]

theorem foldlM_quoted (field before : List Char) (record : List (List Char))
    (records : List (List (List Char))) :
    (field.flatMap doubled).foldlM (step delimiter) ⟨.quoted, before, record, records⟩ =
      some ⟨.quoted, before ++ field, record, records⟩ := by
  induction field generalizing before with
  | nil => rw [List.append_nil]; rfl
  | cons c field ih =>
    have hdoubled : (doubled c).foldlM (step delimiter) ⟨.quoted, before, record, records⟩ =
        some ⟨.quoted, before ++ [c], record, records⟩ := by
      unfold doubled
      split
      · rename_i hquote
        rw [hquote]
        rfl
      · rename_i hquote
        simp [step, hquote]
    rw [List.flatMap_cons, List.foldlM_append, hdoubled, Option.bind_eq_bind, Option.bind_some, ih,
      List.append_assoc, List.singleton_append]

/-- Where a reader is when it has read a field. -/
def placeBehind (delimiter : Char) (field : List Char) : Place :=
  if needsQuotes delimiter field then .closed else if field = [] then .start else .bare

/-- **A field** is read as it was written. -/
theorem foldlM_fieldText (field : List Char) (record : List (List Char))
    (records : List (List (List Char))) :
    (fieldText delimiter field).foldlM (step delimiter) ⟨.start, [], record, records⟩ =
      some ⟨placeBehind delimiter field, field, record, records⟩ := by
  unfold fieldText placeBehind
  cases hquotes : needsQuotes delimiter field with
  | true =>
    have hopen : step delimiter ⟨.start, [], record, records⟩ '\x22' =
        some ⟨.quoted, [], record, records⟩ := rfl
    rw [if_pos rfl, if_pos rfl, List.foldlM_cons, hopen, Option.bind_eq_bind, Option.bind_some,
      List.foldlM_append, foldlM_quoted]
    rfl
  | false =>
    rw [if_neg Bool.false_ne_true, if_neg Bool.false_ne_true]
    cases field with
    | nil => rfl
    | cons c field =>
      obtain ⟨⟨hdelimiter, hquote, hfeed, hreturn⟩, hfield⟩ :=
        List.forall_mem_cons.1 (needsQuotes_eq_false_iff.1 hquotes)
      have hstep : step delimiter ⟨.start, [], record, records⟩ c =
          some ⟨.bare, [c], record, records⟩ := by
        simp only [step, hquote, hdelimiter, hfeed, hreturn, or_self, if_false]
      rw [if_neg (List.cons_ne_nil c field), List.foldlM_cons, hstep, Option.bind_eq_bind,
        Option.bind_some, foldlM_bare (needsQuotes_eq_false_iff.2 hfield)]
      rfl

theorem step_delimiter (hquote : delimiter ≠ '\x22') (field : List Char)
    (record : List (List Char)) (records : List (List (List Char))) :
    step delimiter ⟨placeBehind delimiter field, field, record, records⟩ delimiter =
      some ⟨.start, [], record ++ [field], records⟩ := by
  unfold placeBehind
  split
  · simp [step, hquote, endField]
  · split <;> simp [step, hquote, endField]

/-- The end of a line ends a record, unless the line is empty. -/
theorem step_feed (hfeed : delimiter ≠ '\n') (field : List Char) (record : List (List Char))
    (records : List (List (List Char))) (h : record ≠ [] ∨ fieldText delimiter field ≠ []) :
    step delimiter ⟨placeBehind delimiter field, field, record, records⟩ '\n' =
      some ⟨.start, [], [], records ++ [record ++ [field]]⟩ := by
  unfold placeBehind
  split
  · simp [step, hfeed.symm, endRecord]
  · rename_i hbare
    split
    · rename_i hempty
      have hrecord : record ≠ [] := by
        rcases h with h | h
        · exact h
        · exact absurd (by rw [fieldText, if_neg hbare, hempty]) h
      simp [step, hfeed.symm, endRecord, hrecord]
    · simp [step, hfeed.symm, endRecord]

theorem joined_cons_cons (field next : List Char) (fields : List (List Char)) :
    joined delimiter (field :: next :: fields) =
      fieldText delimiter field ++ delimiter :: joined delimiter (next :: fields) := rfl

/-- **The fields of a record** are read as they were written, and the end of the line behind them
ends the record. -/
theorem foldlM_joined (hquote : delimiter ≠ '\x22') (hfeed : delimiter ≠ '\n')
    {fields : List (List Char)} (hfields : fields ≠ []) (before : List (List Char))
    (records : List (List (List Char))) (h : before ≠ [] ∨ joined delimiter fields ≠ []) :
    (joined delimiter fields ++ ['\n']).foldlM (step delimiter) ⟨.start, [], before, records⟩ =
      some ⟨.start, [], [], records ++ [before ++ fields]⟩ := by
  induction fields generalizing before with
  | nil => exact absurd rfl hfields
  | cons field fields ih =>
    cases fields with
    | nil =>
      rw [joined] at h ⊢
      rw [List.foldlM_append, foldlM_fieldText, Option.bind_eq_bind, Option.bind_some,
        List.foldlM_cons, step_feed hfeed field before records h]
      rfl
    | cons next fields =>
      have hbefore : before ++ [field] ≠ [] := by simp
      have hrest := ih (List.cons_ne_nil next fields) (before ++ [field]) (.inl hbefore)
      rw [joined_cons_cons, List.append_assoc, List.foldlM_append, foldlM_fieldText,
        Option.bind_eq_bind, Option.bind_some, List.cons_append, List.foldlM_cons,
        step_delimiter hquote field before records, Option.bind_eq_bind, Option.bind_some, hrest,
        List.append_assoc, List.singleton_append]

/-- Only a record of one empty field would be an empty line. -/
theorem eq_singleton_of_joined_eq_nil {record : List (List Char)} (hrecord : record ≠ [])
    (h : joined delimiter record = []) : record = [[]] := by
  match record with
  | [] => exact absurd rfl hrecord
  | [field] =>
    rw [joined, fieldText] at h
    split at h
    · exact absurd h (List.cons_ne_nil _ _)
    · rw [h]
  | field :: next :: fields =>
    rw [joined_cons_cons] at h
    exact absurd h (by simp)

/-- **A record** is read as it was written. -/
theorem foldlM_recordText (hquote : delimiter ≠ '\x22') (hfeed : delimiter ≠ '\n')
    {record : List (List Char)} (hrecord : record ≠ []) (records : List (List (List Char))) :
    (recordText delimiter record).foldlM (step delimiter) ⟨.start, [], [], records⟩ =
      some ⟨.start, [], [], records ++ [record]⟩ := by
  unfold recordText
  by_cases hline : joined delimiter record = []
  · -- the two quotes that stand for the empty line
    rw [eq_singleton_of_joined_eq_nil hrecord hline]
    have hempty : fieldText delimiter [] = [] := rfl
    simp [joined, hempty, step, endRecord, hfeed.symm]
  · simp only [if_neg hline]
    exact foldlM_joined hquote hfeed hrecord [] records (.inr hline)

theorem foldlM_flatMap_recordText (hquote : delimiter ≠ '\x22') (hfeed : delimiter ≠ '\n')
    {more : List (List (List Char))} (h : ∀ record ∈ more, record ≠ [])
    (records : List (List (List Char))) :
    (more.flatMap (recordText delimiter)).foldlM (step delimiter) ⟨.start, [], [], records⟩ =
      some ⟨.start, [], [], records ++ more⟩ := by
  induction more generalizing records with
  | nil => rw [List.append_nil]; rfl
  | cons record more ih =>
    obtain ⟨hrecord, hmore⟩ := List.forall_mem_cons.1 h
    rw [List.flatMap_cons, List.foldlM_append, foldlM_recordText hquote hfeed hrecord,
      Option.bind_eq_bind, Option.bind_some, ih hmore, List.append_assoc, List.singleton_append]

/-- **Any records** of at least one field are read as they were written. -/
theorem read_flatMap_recordText (hquote : delimiter ≠ '\x22') (hfeed : delimiter ≠ '\n')
    {records : List (List (List Char))} (h : ∀ record ∈ records, record ≠ []) :
    read delimiter (String.ofList (records.flatMap (recordText delimiter))) =
      some (records.map (·.map String.ofList)) := by
  have hrun := foldlM_flatMap_recordText hquote hfeed h []
  unfold read Reading.empty
  rw [String.toList_ofList, hrun]
  rfl

/-! ## What pages stand for -/

/-- A cell as a field: nothing if it is missing, JSON text if it is kept whole. -/
def shown : Cell → String
  | .missing => ""
  | .list v => v.toJson.compact
  | cell => cell.text

/-- The records of a page behind another one, or of the first page: its names, unless they are those
of the page before, and a record with the cells of each row. -/
def pageSheet (before : Option Table) (table : Table) : List (List String) :=
  (if before.map Table.names = some table.names then [] else [table.names]) ++
    (List.range table.rowCount).map fun row => (table.cellsAt row).map shown

/-- The records of consecutive pages. -/
def sheet (tables : List Table) : List (List String) :=
  ((none :: tables.map some).zip tables).flatMap fun pages => pageSheet pages.1 pages.2

theorem field_eq_shown (cell : Cell) : field cell = (shown cell).toList := by
  cases cell <;> rfl

variable {table : Table} {tables : List Table}

theorem pageRecords_eq_pageSheet (h : table.IsPage) (before : Option Table) :
    (pageRecords (before.map Table.names) table).map (·.map String.ofList) =
      pageSheet before table := by
  have hrows : table.rows.map (fun row => (row.map field).map String.ofList) =
      (List.range table.rowCount).map fun row => (table.cellsAt row).map shown := by
    rw [Table.rows_eq_cellsAt h.allOfSize, List.map_map]
    simp [Function.comp_def, field_eq_shown]
  unfold pageRecords pageSheet
  rw [List.map_append, List.map_map]
  refine congrArg₂ (· ++ ·) ?_ hrows
  split <;> simp [Function.comp_def]

theorem records_eq_sheet (h : ∀ table ∈ tables, table.IsPage) (before : Option Table) :
    (records (before.map Table.names) tables).map (·.map String.ofList) =
      ((before :: tables.map some).zip tables).flatMap fun pages => pageSheet pages.1 pages.2 := by
  induction tables generalizing before with
  | nil => rfl
  | cons table tables ih =>
    obtain ⟨htable, htables⟩ := List.forall_mem_cons.1 h
    have hrest := ih htables (some table)
    rw [Option.map_some] at hrest
    rw [records, List.map_append, pageRecords_eq_pageSheet htable, hrest, List.map_cons,
      List.zip_cons_cons, List.flatMap_cons]

/-- No record of a page with columns is without fields. -/
theorem ne_nil_of_mem_records (h : ∀ table ∈ tables, table.IsPage ∧ table.columns ≠ [])
    {previous : Option (List String)} {record : List (List Char)}
    (hrecord : record ∈ records previous tables) : record ≠ [] := by
  induction tables generalizing previous with
  | nil => cases hrecord
  | cons table tables ih =>
    obtain ⟨⟨hpage, hcolumns⟩, htables⟩ := List.forall_mem_cons.1 h
    rw [records, pageRecords, List.mem_append, List.mem_append] at hrecord
    rcases hrecord with (hheader | hrow) | hrest
    · split at hheader
      · cases hheader
      · rw [List.mem_singleton.1 hheader]
        simp [Table.names, hcolumns]
    · rw [Table.rows_eq_cellsAt hpage.allOfSize, List.map_map] at hrow
      obtain ⟨row, -, rfl⟩ := List.mem_map.1 hrow
      simp [Table.cellsAt, hcolumns]
    · exact ih htables hrest

/-- The text of pages is read as their sheet. -/
theorem read_pagesText (hquote : delimiter ≠ '\x22') (hfeed : delimiter ≠ '\n')
    (h : ∀ table ∈ tables, table.IsPage ∧ table.columns ≠ []) :
    read delimiter (pagesText delimiter tables) = some (sheet tables) := by
  have hrecords := records_eq_sheet (fun table htable => (h table htable).1) none
  rw [pagesText, read_flatMap_recordText hquote hfeed fun record => ne_nil_of_mem_records h]
  exact congrArg some hrecords

theorem read_join_pagesText (hquote : delimiter ≠ '\x22') (hfeed : delimiter ≠ '\n')
    {inputs : List Labelled}
    (h : ∀ input ∈ inputs, ∀ table ∈ input.2, table.IsPage ∧ table.columns ≠ []) :
    read delimiter (String.join (inputs.map fun input => pagesText delimiter input.2)) =
      some (inputs.flatMap fun input => sheet input.2) := by
  have hjoin : String.join (inputs.map fun input => pagesText delimiter input.2) =
      String.ofList ((inputs.flatMap fun input => records none input.2).flatMap
        (recordText delimiter)) := by
    rw [← String.toList_inj, String.toList_join, String.toList_ofList, List.flatMap_map,
      List.flatMap_assoc]
    simp only [pagesText, String.toList_ofList]
  have hnonempty : ∀ record ∈ inputs.flatMap fun input => records none input.2, record ≠ [] := by
    intro record hrecord
    obtain ⟨input, hinput, hrecord⟩ := List.mem_flatMap.1 hrecord
    exact ne_nil_of_mem_records (h input hinput) hrecord
  rw [hjoin, read_flatMap_recordText hquote hfeed hnonempty, List.map_flatMap, Option.some.injEq]
  apply List.flatMap_congr
  intro input hinput
  exact records_eq_sheet (fun table htable => (h input hinput table htable).1) none

/-- **Delimited records are read back.**  With any delimiter but a quote or the end of a line, the
text of pages that have columns is read as their sheet: the names of a page, unless they are those
of the page before, and behind them the cells of its rows, whatever is in them. Of several inputs it
is one sheet after the other, and each starts with names of its own. -/
theorem pages_read_back (hquote : delimiter ≠ '\x22') (hfeed : delimiter ≠ '\n') :
    (∀ tables : List Table, (∀ table ∈ tables, table.IsPage ∧ table.columns ≠ []) →
      ∃ text, (Style.csv delimiter).pages tables = .ok (.text text) ∧
        read delimiter text = some (sheet tables)) ∧
    ∀ inputs : List Labelled,
      (∀ input ∈ inputs, ∀ table ∈ input.2, table.IsPage ∧ table.columns ≠ []) →
      ∃ text, (Style.csv delimiter).inputs inputs = .ok (.text text) ∧
        read delimiter text = some (inputs.flatMap fun input => sheet input.2) :=
  ⟨fun _ h => ⟨_, rfl, read_pagesText hquote hfeed h⟩,
    fun _ h => ⟨_, rfl, read_join_pagesText hquote hfeed h⟩⟩

/-- A text with the delimiter, a quote and the end of a line, a row that is one missing cell, a page
with the names of the page before and one with a value that is kept whole. -/
theorem pages_read_back_quoted :
    ∃ first second third : Table,
      ((Source.queue [[("a", .scalar (.string "x,\"\n"))], [("a", .null)]]).flatten
        Options.default 2).1 = .ok first ∧
      ((Source.queue [[("a", .scalar (.bool true))]]).flatten Options.default 2).1 = .ok second ∧
      ((Source.queue [[("b,", .array [.null]), ("c", .null)]]).flatten Options.default 2).1 =
        .ok third ∧
      ',' ≠ '\x22' ∧ ',' ≠ '\n' ∧
      (∀ table ∈ [first, second, third], table.IsPage ∧ table.columns ≠ []) ∧
      ∃ text,
        (Style.csv ',').inputs [("x", [first, second]), ("y", [third])] = .ok (.text text) ∧
        text = "a\n\"x,\"\"\n\"\n\"\"\ntrue\n\"b,\",c\n[null],\n" ∧
        read ',' text =
          some [["a"], ["x,\"\n"], [""], ["true"], ["b,", "c"], ["[null]", ""]] := by
  obtain ⟨first, hfirst⟩ : ∃ first : Table,
      first = ⟨[⟨"a", .string, #[.string "x,\"\n", .missing]⟩], 2, []⟩ := ⟨_, rfl⟩
  obtain ⟨second, hsecond⟩ : ∃ second : Table,
      second = ⟨[⟨"a", .bool, #[.bool true]⟩], 1, []⟩ := ⟨_, rfl⟩
  obtain ⟨third, hthird⟩ : ∃ third : Table,
      third = ⟨[⟨"b,", .list, #[.list (.array [.null])]⟩, ⟨"c", .bool, #[.missing]⟩], 1,
        [.nullDefaultedToBool "c" 0]⟩ := ⟨_, rfl⟩
  have hfirstPage : ((Source.queue [[("a", .scalar (.string "x,\"\n"))], [("a", .null)]]).flatten
      Options.default 2).1 = .ok first := by
    rw [hfirst]
    with_unfolding_all rfl
  have hsecondPage : ((Source.queue [[("a", .scalar (.bool true))]]).flatten
      Options.default 2).1 = .ok second := by
    rw [hsecond]
    with_unfolding_all rfl
  have hthirdPage : ((Source.queue [[("b,", .array [.null]), ("c", .null)]]).flatten
      Options.default 2).1 = .ok third := by
    rw [hthird]
    with_unfolding_all rfl
  have hpages : ∀ table ∈ [first, second, third], table.IsPage ∧ table.columns ≠ [] := by
    rw [List.forall_mem_cons, List.forall_mem_cons, List.forall_mem_singleton]
    refine ⟨⟨⟨_, _, _, hfirstPage⟩, ?_⟩, ⟨⟨_, _, _, hsecondPage⟩, ?_⟩, ⟨_, _, _, hthirdPage⟩, ?_⟩
    · simp [hfirst]
    · simp [hsecond]
    · simp [hthird]
  obtain ⟨text, htext, hread⟩ := (@pages_read_back ',' (by decide) (by decide)).2
    [("x", [first, second]), ("y", [third])] (by simpa [and_assoc] using hpages)
  refine ⟨first, second, third, hfirstPage, hsecondPage, hthirdPage, by decide, by decide, hpages,
    text, htext, ?_, hread.trans ?_⟩
  · rw [← Report.text.inj (Except.ok.inj htext), hfirst, hsecond, hthird]
    with_unfolding_all rfl
  · rw [hfirst, hsecond, hthird]
    with_unfolding_all rfl

end DocTable.Csv

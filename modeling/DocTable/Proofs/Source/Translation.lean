import DocTable.Proofs.Source.FirstFailure

/-!
# Options as a translation of the documents

The options say how numbers of 64 bits and dates become cells. Writing such values as texts before
they are read comes to the same: the default options make the same page of the translated documents.

* `Value.translate` — a value as the options have it.
* `Table.Cursor.step_translate`, `Table.Cursor.step_error_translate` — one field: both are stored, and
  to the same effect, or both fail.
* `Table.append_translate`, `Table.foldlM_append_translate` — one row, and any number of them.
* `Table.RefusedField` — the field that a page fails at; `RefusedField.translate` — the same field is
  refused among the translated documents, and reported with its translated kind.
* `flatten_translate` — the two pages are the same, and so are the failures but for the kind.
-/

set_option autoImplicit false

namespace DocTable

/-- A value as the options have it: numbers of 64 bits in their decimal digits and dates as texts, if
they ask for this. What is inside an array or a document stays as it is. -/
def Value.translate (options : Options) : Value → Value
  | .scalar (.int64 n) =>
    if options.bigintAsString then .scalar (.string (intText n.toInt)) else .scalar (.int64 n)
  | .scalar (.dateTime millis) =>
    if options.dateAsString then .scalar (.string (Instant.text millis.toInt))
    else .scalar (.dateTime millis)
  | v => v

/-- A document with all its fields as the options have them. -/
def Document.translate (options : Options) (doc : Document) : Document :=
  doc.map fun field => (field.1, field.2.translate options)

/-- **The cell of a value** is that of its translation. -/
theorem Cell.ofValue_translate (options : Options) (value : Value) :
    Cell.ofValue Options.default (value.translate options) = Cell.ofValue options value := by
  cases value with
  | scalar s =>
    cases s with
    | int64 n =>
      cases h : options.bigintAsString <;>
        simp [Value.translate, ofValue, ofScalar, Options.default, h]
    | dateTime millis =>
      cases h : options.dateAsString <;>
        simp [Value.translate, ofValue, ofScalar, Options.default, h]
    | _ => rfl
  | _ => rfl

namespace Table

variable {options : Options} {row : Nat} {table : Table}

/-! ## Rows of translated documents -/

theorem store_translate {column wide : Column} {value : Value} :
    store Options.default row column (value.translate options) = .ok wide ↔
      store options row column value = .ok wide := by
  rw [store_eq_ok, store_eq_ok, Cell.ofValue_translate]

theorem startColumn_translate {name : String} {value : Value} {started : Column × List Warning} :
    startColumn Options.default row name (value.translate options) = .ok started ↔
      startColumn options row name value = .ok started := by
  simp only [startColumn, Cell.ofValue_translate, Steps.bind_eq_ok, store_translate]

theorem Cursor.step_translate {cursor next : Cursor} {field : String × Value} :
    cursor.step Options.default row (field.1, field.2.translate options) = .ok next ↔
      cursor.step options row field = .ok next := by
  unfold step
  simp only
  split
  · simp only [Steps.bind_eq_ok, store_translate]
  · simp only [Steps.bind_eq_ok, startColumn_translate]

/-- A field that fails does so with its translation. The error tells the same column, row and type,
and the kind of the value as it came in each case. -/
theorem Cursor.step_error_translate {cursor : Cursor} {name : String} {value : Value} {error : Error}
    (h : cursor.step options row (name, value) = .error error) :
    ∃ type, error = .heterogeneousColumn name row type value.kind ∧
      cursor.step Options.default row (name, value.translate options) =
        .error (.heterogeneousColumn name row type (value.translate options).kind) := by
  obtain ⟨column, hcolumn, hjoins, rfl⟩ := step_eq_error_iff.1 h
  rw [← Cell.ofValue_translate] at hjoins
  exact ⟨column.type, rfl, step_eq_error_iff.2 ⟨column, hcolumn, hjoins, rfl⟩⟩

/-- The fields of a document are matched with the same columns. -/
theorem Cursor.foldlM_step_translate {cursor last : Cursor} {fields : Document} :
    (Document.translate options fields).foldlM (Cursor.step Options.default row) cursor = .ok last ↔
      fields.foldlM (Cursor.step options row) cursor = .ok last :=
  Steps.foldlM_map_eq_ok fun _ _ _ => step_translate

/-- **One row**: a document and its translation make the same. -/
theorem append_translate {doc : Document} {longer : Table} :
    table.append Options.default (doc.translate options) = .ok longer ↔
      table.append options doc = .ok longer := by
  rw [append_eq_foldlM, append_eq_foldlM, Steps.map_eq_ok, Steps.map_eq_ok]
  simp only [Cursor.foldlM_step_translate]

/-- **Any number of rows.** -/
theorem foldlM_append_translate {docs : List Document} {longer : Table} :
    (docs.map (Document.translate options)).foldlM (append Options.default) table = .ok longer ↔
      docs.foldlM (append options) table = .ok longer :=
  Steps.foldlM_map_eq_ok fun _ _ _ => append_translate

/-! ## The field that is refused -/

/-- The rows are made of the first documents, the fields before `field` have their columns in the next
row, and `field` fails. -/
inductive RefusedField (options : Options) (rows : List Document) (before : Document)
    (field : String × Value) (error : Error) : Prop
  | intro {table : Table} {cursor : Cursor} :
      rows.foldlM (append options) empty = .ok table →
      before.foldlM (Cursor.step options rows.length) (Cursor.start table.columns) = .ok cursor →
      cursor.step options rows.length field = .error error →
      RefusedField options rows before field error

namespace RefusedField

variable {rows : List Document} {before : Document} {field : String × Value} {error : Error}

/-- Documents that do not make a table have a field that is refused. -/
theorem of_foldlM {docs : List Document} (h : docs.foldlM (append options) empty = .error error) :
    ∃ rows before field after later, docs = rows ++ (before ++ field :: after) :: later ∧
      RefusedField options rows before field error := by
  obtain ⟨rows, doc, later, table, rfl, htable, hdoc⟩ := Steps.exists_of_foldlM_eq_error h
  have hrows := (isTableOf_of_foldlM htable).rowCount_eq
  rw [append_eq_error_iff, hrows] at hdoc
  obtain ⟨before, field, after, cursor, rfl, hcursor, hfield⟩ :=
    Steps.exists_of_foldlM_eq_error hdoc
  exact ⟨rows, before, field, after, later, rfl, htable, hcursor, hfield⟩

/-- What comes behind the field makes no difference. -/
theorem foldlM (h : RefusedField options rows before field error) (after : Document)
    (later : List Document) :
    (rows ++ (before ++ field :: after) :: later).foldlM (append options) empty = .error error := by
  obtain ⟨htable, hcursor, hfield⟩ := h
  have hrows := (isTableOf_of_foldlM htable).rowCount_eq
  rw [List.foldlM_append, htable, Steps.ok_bind, List.foldlM_cons, append_eq_foldlM, hrows,
    List.foldlM_append, hcursor, Steps.ok_bind, List.foldlM_cons, hfield]
  rfl

/-- Without the field there is a row. -/
theorem exists_foldlM_before (h : RefusedField options rows before field error) :
    ∃ table, (rows ++ [before]).foldlM (append options) empty = .ok table := by
  obtain @⟨table, cursor, htable, hcursor, -⟩ := h
  have hrows := (isTableOf_of_foldlM htable).rowCount_eq
  refine ⟨table.withRow cursor, ?_⟩
  rw [List.foldlM_append, htable, Steps.ok_bind, List.foldlM_cons, append_eq_foldlM, hrows,
    hcursor]
  rfl

/-- **The same field is refused** among the translated documents. -/
theorem translate {name : String} {value : Value}
    (h : RefusedField options rows before (name, value) error) :
    ∃ type, error = .heterogeneousColumn name rows.length type value.kind ∧
      RefusedField Options.default (rows.map (Document.translate options))
        (before.translate options) (name, value.translate options)
        (.heterogeneousColumn name rows.length type (value.translate options).kind) := by
  obtain @⟨table, cursor, htable, hcursor, hfield⟩ := h
  obtain ⟨type, rfl, htranslated⟩ := Cursor.step_error_translate hfield
  refine ⟨type, rfl, @RefusedField.intro _ _ _ _ _ table cursor ?_ ?_ ?_⟩
  · exact foldlM_append_translate.2 htable
  · rw [List.length_map]
    exact Cursor.foldlM_step_translate.2 hcursor
  · rw [List.length_map]
    exact htranslated

end RefusedField

end Table

/-! ## Pages of translated documents -/

namespace Source

open Table

variable {options : Options} {maxRows : Nat}

/-- A page of documents at hand is made of the first of them. -/
theorem flatten_queue (docs : List Document) (hpos : 0 < maxRows) :
    ((queue docs).flatten options maxRows).1 =
      ((docs.take maxRows).foldlM (append options) empty).map finish := by
  rw [flatten_of_pos hpos]
  simp only [fill_eq_foldlM, items_queue, List.foldlM_map, appendItem_ok]

/-- What a page of documents comes to, next to that of their translations: the same table, or the
refusal of the same field. The page of the rows before that field with the fields before it in its row
is made, and with the field it is refused; the kinds are those of the field's value and of its
translation. -/
inductive SameButKind (options : Options) (docs : List Document) (maxRows : Nat) :
    Except Error Table → Except Error Table → Prop
  | table (table : Table) : SameButKind options docs maxRows (.ok table) (.ok table)
  | pageSize : maxRows = 0 →
      SameButKind options docs maxRows (.error .invalidPageSize) (.error .invalidPageSize)
  | refused {row : Nat} {before after : Document} {name : String} {value : Value}
      {type : ColumnType} : row < maxRows →
      docs[row]? = some (before ++ (name, value) :: after) →
      (∃ table, ((queue (docs.take row ++ [before])).flatten options (row + 1)).1 = .ok table) →
      ((queue (docs.take row ++ [before ++ [(name, value)]])).flatten options (row + 1)).1 =
        .error (.heterogeneousColumn name row type value.kind) →
      SameButKind options docs maxRows (.error (.heterogeneousColumn name row type value.kind))
        (.error (.heterogeneousColumn name row type (value.translate options).kind))

/-- **The options are a translation of the documents.** A page of documents under any options is the
page of the translated documents under the default ones: the columns, their types and cells, the number
of rows and the warnings are the same. Where it is refused, so is the other, at the same field and with
the same column, row and type; only the kind is that of the value before it is translated. -/
theorem flatten_translate (options : Options) (docs : List Document) (maxRows : Nat) :
    SameButKind options docs maxRows ((queue docs).flatten options maxRows).1
      ((queue (docs.map (Document.translate options))).flatten Options.default maxRows).1 := by
  rcases Nat.eq_zero_or_pos maxRows with rfl | hpos
  · exact .pageSize rfl
  rw [flatten_queue _ hpos, flatten_queue _ hpos, ← List.map_take]
  cases hpage : (docs.take maxRows).foldlM (append options) empty with
  | ok table =>
    rw [foldlM_append_translate.2 hpage]
    exact .table _
  | error error =>
    obtain ⟨rows, before, ⟨name, value⟩, after, later, hdocs, hfield⟩ := RefusedField.of_foldlM hpage
    obtain ⟨type, rfl, htranslated⟩ := hfield.translate
    have hall : docs = rows ++ (before ++ (name, value) :: after) :: (later ++ docs.drop maxRows) := by
      rw [← List.cons_append, ← List.append_assoc, ← hdocs, List.take_append_drop]
    have hrows : docs.take rows.length = rows := by rw [hall]; simp
    have hsame : ((docs.take maxRows).map (Document.translate options)).foldlM
        (append Options.default) empty =
          .error (.heterogeneousColumn name rows.length type (value.translate options).kind) := by
      rw [hdocs, List.map_append, List.map_cons]
      simpa [Document.translate] using htranslated.foldlM (Document.translate options after) _
    rw [hsame]
    have hdoc : docs[rows.length]? = some (before ++ (name, value) :: after) := by
      rw [hall]
      simp
    have hrow : rows.length < maxRows := by
      have hlength := congrArg List.length hdocs
      rw [List.length_take, List.length_append, List.length_cons] at hlength
      omega
    refine .refused hrow hdoc ?_ ?_
    · obtain ⟨table, htable⟩ := hfield.exists_foldlM_before
      refine ⟨table.finish, ?_⟩
      rw [flatten_queue _ (Nat.succ_pos _), hrows, List.take_of_length_le (by simp), htable]
      rfl
    · rw [flatten_queue _ (Nat.succ_pos _), hrows, List.take_of_length_le (by simp),
        hfield.foldlM [] []]
      rfl

/-- A number that comes to a column of dates is refused as the number, though it would have been kept
as a text; as a text it is refused as one. -/
example : ∃ docs : List Document,
    docs = [[("a", .scalar (.dateTime 0))], [("a", .scalar (.int64 5))]] ∧
      ((queue docs).flatten ⟨true, false⟩ 2).1 =
        .error (.heterogeneousColumn "a" 1 .dateTime .int64) ∧
      ((queue (docs.map (Document.translate ⟨true, false⟩))).flatten Options.default 2).1 =
        .error (.heterogeneousColumn "a" 1 .dateTime .string) :=
  ⟨_, rfl, by with_unfolding_all rfl, by with_unfolding_all rfl⟩

end Source

end DocTable

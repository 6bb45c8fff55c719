import DocTable.Proofs.Binary64.Integer
import DocTable.Proofs.Table.Row

/-!
# What widening leaves of a cell

A cell is converted when it is stored and once more each time that its column is widened. Along every
way to a type the cell ends as the same one, unless it is a truth value that ends as text.

* `Cell.final` — the closed form.
* `Cell.convert?_final` — one conversion more keeps the closed form. The way of an integer through
  the doubles to a text is that of `Binary64.cellText_ofInt`.
* `Column.Carries` — the invariant of a cell in a column that grows. `Carries.insert?` is one row
  more, `Carries.growAll?` any number of them.
* `final_of_history` — the cells of a column after any history.
-/

set_option autoImplicit false

namespace DocTable

/-- Whether a column of the type holds numbers. -/
def ColumnType.isNumeric : ColumnType → Bool
  | int32 => true
  | double => true
  | _ => false

/-- All the ways in which a column is widened. -/
theorem ColumnType.widened_cases (type : ColumnType) (cell : Cell) :
    type.widened cell = type ∨
      type = .bool ∧ (type.widened cell = .int32 ∨ type.widened cell = .double ∨
        type.widened cell = .string) ∨
      type = .int32 ∧ (type.widened cell = .double ∨ type.widened cell = .string) ∨
      type = .double ∧ type.widened cell = .string := by
  cases type <;> cases cell <;> simp [widened]

theorem ColumnType.widened_eq_bool {type : ColumnType} {cell : Cell}
    (h : type.widened cell = .bool) : type = .bool := by
  cases type <;> cases cell <;> simp_all [widened]

theorem ColumnType.or_isNumeric {numeric : Bool} {type : ColumnType}
    (h : type.isNumeric = true → numeric = true) : (numeric || type.isNumeric) = numeric := by
  cases htype : type.isNumeric with
  | true => rw [h htype, Bool.or_true]
  | false => rw [Bool.or_false]

namespace Cell

/-- What a cell has become in a column of a type. Of a truth value in a column of texts it matters
whether the column was numeric once since it was stored. -/
def final (numeric : Bool) : ColumnType → Cell → Cell
  | .int32, bool b => int32 (if b then 1 else 0)
  | .double, bool b => double (Binary64.ofInt (if b then 1 else 0))
  | .double, int32 n => double (Binary64.ofInt n.toInt)
  | .string, bool true => string (if numeric then "1" else "true")
  | .string, bool false => string (if numeric then "0" else "false")
  | .string, int32 n => string (intText n.toInt)
  | .string, double x => string x.cellText
  | _, cell => cell

variable {numeric : Bool} {type : ColumnType} {cell kept : Cell}

/-- A missing cell stays missing. -/
theorem final_missing : missing.final numeric type = missing := by
  cases type <;> rfl

/-- A cell that is stored in a column of a type has had no other type to pass through. -/
theorem eq_final_of_convert? (h : cell.convert? type = some kept) :
    kept = cell.final type.isNumeric type := by
  cases cell with
  | bool b => cases type <;> cases b <;> cases h <;> rfl
  | _ => cases type <;> cases h <;> rfl

theorem natAbs_toInt_lt (n : Int32) : n.toInt.natAbs < 2 ^ 32 := by
  have hle := n.le_toInt
  have hlt := n.toInt_lt
  omega

/-- An integer that went through the doubles has kept its digits. -/
theorem cellText_ofInt_toInt (n : Int32) :
    (Binary64.ofInt n.toInt).cellText = intText n.toInt :=
  Binary64.cellText_ofInt (natAbs_toInt_lt n)

theorem type_final (numeric : Bool) (h : cell.convert? type = some kept) :
    cell.final numeric type = missing ∨ (cell.final numeric type).type = type := by
  cases cell with
  | missing => exact .inl final_missing
  | bool b => cases type <;> cases b <;> cases h <;> exact .inr rfl
  | _ => cases type <;> cases h <;> exact .inr rfl

/-- What fits in a column fits in it when it is widened. -/
theorem exists_convert?_widened (other : Cell) (h : cell.convert? type = some kept) :
    ∃ last, cell.convert? (type.widened other) = some last := by
  cases type <;> cases cell <;> cases h <;> cases other <;> exact ⟨_, rfl⟩

/-- **One conversion more** takes the closed form for a type to that for the type the column is
widened to. A column of truth values has not been numeric yet; one that is numeric has been so since
the cell was stored. -/
theorem convert?_final (other : Cell) (h : cell.convert? type = some kept)
    (hnumeric : type.isNumeric = true → numeric = true) (hbool : type = .bool → numeric = false) :
    (cell.final numeric type).convert? (type.widened other) =
      some (cell.final (numeric || (type.widened other).isNumeric) (type.widened other)) := by
  rcases type.widened_cases other with hsame | ⟨rfl, hwide⟩ | ⟨rfl, hwide⟩ | ⟨rfl, hwide⟩
  · rw [hsame, ColumnType.or_isNumeric hnumeric]
    rcases type_final numeric h with hmissing | hown
    · rw [hmissing, convert?_missing]
    · nth_rewrite 1 [← hown]
      exact convert?_type _
  · obtain rfl := hbool rfl
    cases cell with
    | missing => rw [final_missing, final_missing, convert?_missing]
    | bool b => rcases hwide with hwide | hwide | hwide <;> rw [hwide] <;> cases b <;> rfl
    | _ => cases h
  · obtain rfl := hnumeric rfl
    cases cell with
    | missing => rw [final_missing, final_missing, convert?_missing]
    | bool b => rcases hwide with hwide | hwide <;> rw [hwide] <;> cases b <;> rfl
    | int32 n => rcases hwide with hwide | hwide <;> rw [hwide] <;> rfl
    | _ => cases h
  · obtain rfl := hnumeric rfl
    rw [hwide]
    cases cell with
    | missing => rfl
    | bool b => cases b <;> rfl
    | int32 n => exact congrArg (fun text => some (string text)) (cellText_ofInt_toInt n)
    | double x => rfl
    | _ => cases h

end Cell

namespace Column

variable {start column wide result : Column} {entry : Option Cell}
  {entries front rest : List (Option Cell)}

/-! ## A column that grows -/

/-- The column with one more row: a cell that is stored, or none for a row in which it is missing. -/
def grow? (column : Column) : Option Cell → Option Column
  | some cell => column.insert? cell
  | none => some column.insertMissing

/-- The column with a row for each entry; none as soon as a cell is refused. -/
def growAll? (column : Column) (entries : List (Option Cell)) : Option Column :=
  entries.foldlM grow? column

/-- The column holds numbers, now or with some of the entries behind it. -/
def IsNumericWithin (column : Column) (entries : List (Option Cell)) : Prop :=
  ∃ few grown, few <+: entries ∧ column.growAll? few = some grown ∧ grown.type.isNumeric = true

/-- A row that is missing is a missing cell that is stored. -/
theorem grow?_eq_insert? (column : Column) (entry : Option Cell) :
    column.grow? entry = column.insert? (entry.getD .missing) := by
  cases entry with
  | some cell => rfl
  | none => exact (insert?_missing column).symm

theorem growAll?_cons : column.growAll? (entry :: entries) =
    (column.grow? entry).bind fun wide => wide.growAll? entries :=
  List.foldlM_cons

theorem growAll?_append : column.growAll? (front ++ rest) =
    (column.growAll? front).bind fun wide => wide.growAll? rest :=
  List.foldlM_append

theorem growAll?_size (h : column.growAll? entries = some result) :
    result.size = column.size + entries.length := by
  induction entries generalizing column with
  | nil =>
    cases h
    rfl
  | cons entry entries ih =>
    rw [growAll?_cons, grow?_eq_insert?] at h
    obtain ⟨wide, hwide, h⟩ := Option.bind_eq_some_iff.1 h
    rw [ih h, insert?_size hwide, List.length_cons]
    omega

theorem isNumericWithin_of_isNumeric (h : column.type.isNumeric = true) :
    column.IsNumericWithin entries :=
  ⟨[], column, List.nil_prefix, rfl, h⟩

theorem isNumericWithin_nil : column.IsNumericWithin [] ↔ column.type.isNumeric = true := by
  constructor
  · rintro ⟨few, grown, hfew, hgrown, hnumeric⟩
    rw [List.prefix_nil.1 hfew] at hgrown
    cases hgrown
    exact hnumeric
  · exact isNumericWithin_of_isNumeric

theorem isNumericWithin_cons (h : column.grow? entry = some wide) :
    column.IsNumericWithin (entry :: entries) ↔
      column.type.isNumeric = true ∨ wide.IsNumericWithin entries := by
  constructor
  · rintro ⟨few, grown, hfew, hgrown, hnumeric⟩
    rcases few with _ | ⟨first, few⟩
    · cases hgrown
      exact .inl hnumeric
    · obtain ⟨rfl, hrest⟩ := List.cons_prefix_cons.1 hfew
      rw [growAll?_cons, h] at hgrown
      exact .inr ⟨few, grown, hrest, hgrown, hnumeric⟩
  · rintro (hnumeric | ⟨few, grown, hfew, hgrown, hnumeric⟩)
    · exact isNumericWithin_of_isNumeric hnumeric
    · refine ⟨entry :: few, grown, List.cons_prefix_cons.2 ⟨rfl, hfew⟩, ?_, hnumeric⟩
      rw [growAll?_cons, h, Option.bind_some, hgrown]

/-- What a column has been before and after one of its rows. -/
theorem growAll?_split (h : column.growAll? (front ++ entry :: rest) = some result) :
    ∃ before stored : Column, before.size = column.size + front.length ∧ before.grow? entry = some stored ∧
      column.growAll? (front ++ [entry]) = some stored ∧ stored.growAll? rest = some result := by
  rw [growAll?_append] at h
  obtain ⟨before, hbefore, h⟩ := Option.bind_eq_some_iff.1 h
  rw [growAll?_cons] at h
  obtain ⟨stored, hstored, h⟩ := Option.bind_eq_some_iff.1 h
  refine ⟨before, stored, growAll?_size hbefore, hstored, ?_, h⟩
  rw [growAll?_append, hbefore, Option.bind_some, growAll?_cons, hstored]
  rfl

/-- **Missing rows stay missing.** -/
theorem MissingAt.growAll? {row : Nat} (hmissing : column.MissingAt row)
    (h : column.growAll? entries = some result) : result.MissingAt row := by
  induction entries generalizing column with
  | nil =>
    cases h
    exact hmissing
  | cons entry entries ih =>
    rw [growAll?_cons, grow?_eq_insert?] at h
    obtain ⟨wide, hwide, h⟩ := Option.bind_eq_some_iff.1 h
    exact ih (hmissing.insert? hwide) h

/-! ## One cell of it -/

/-- In this row the column holds what a cell has become; `numeric` tells whether the column was numeric
once since the cell was stored. -/
structure Carries (column : Column) (row : Nat) (cell : Cell) (numeric : Bool) : Prop where
  getElem?_eq : column.cells[row]? = some (cell.final numeric column.type)
  fits : ∃ kept, cell.convert? column.type = some kept
  numeric_of_isNumeric : column.type.isNumeric = true → numeric = true
  /-- A column of truth values was never anything else. -/
  numeric_of_bool : column.type = .bool → numeric = false

variable {row : Nat} {cell other : Cell} {numeric : Bool}

/-- A cell that was just stored. -/
theorem carries_of_insert? (h : column.insert? cell = some wide) :
    wide.Carries column.size cell wide.type.isNumeric := by
  obtain ⟨kept, hkept, hlast⟩ := insert?_stored h
  refine ⟨?_, ⟨kept, hkept⟩, id, fun hbool => ?_⟩
  · rw [hlast, Cell.eq_final_of_convert? hkept]
  · rw [hbool]
    rfl

/-- **One row more** leaves the cell settled. -/
theorem Carries.insert? (h : column.Carries row cell numeric)
    (hwide : column.insert? other = some wide) :
    wide.Carries row cell (numeric || wide.type.isNumeric) := by
  obtain ⟨kept, hkept⟩ := h.fits
  have hnext := Cell.convert?_final other hkept h.numeric_of_isNumeric h.numeric_of_bool
  rw [← insert?_type hwide] at hnext
  refine ⟨insert?_getElem? hwide h.getElem?_eq hnext fun hsame => ?_, ?_, ?_, ?_⟩
  · rw [← hsame, ColumnType.or_isNumeric h.numeric_of_isNumeric]
  · rw [insert?_type hwide]
    exact Cell.exists_convert?_widened other hkept
  · intro hnumeric
    rw [hnumeric, Bool.or_true]
  · intro hbool
    rw [hbool, Bool.or_eq_false_iff]
    rw [insert?_type hwide] at hbool
    exact ⟨h.numeric_of_bool (ColumnType.widened_eq_bool hbool), rfl⟩

/-- **Any number of rows** leave it settled. -/
theorem Carries.growAll? (h : column.Carries row cell numeric)
    (hresult : column.growAll? entries = some result) :
    ∃ since : Bool, (since = true ↔ numeric = true ∨ column.IsNumericWithin entries) ∧
      result.Carries row cell since := by
  induction entries generalizing column numeric with
  | nil =>
    cases hresult
    refine ⟨numeric, ?_, h⟩
    rw [isNumericWithin_nil]
    exact ⟨.inl, fun hnumeric => hnumeric.elim id h.numeric_of_isNumeric⟩
  | cons entry entries ih =>
    rw [growAll?_cons] at hresult
    obtain ⟨wide, hwide, hresult⟩ := Option.bind_eq_some_iff.1 hresult
    have hinsert := hwide
    rw [grow?_eq_insert?] at hinsert
    obtain ⟨since, hsince, hcarries⟩ := ih (h.insert? hinsert) hresult
    refine ⟨since, ?_, hcarries⟩
    rw [hsince, isNumericWithin_cons hwide, Bool.or_eq_true, or_assoc]
    -- both columns are among those that are looked at
    constructor
    · rintro (hnumeric | hnumeric | hlater)
      · exact .inl hnumeric
      · exact .inr (.inr (isNumericWithin_of_isNumeric hnumeric))
      · exact .inr (.inr hlater)
    · rintro (hnumeric | hnumeric | hlater)
      · exact .inl hnumeric
      · exact .inl (h.numeric_of_isNumeric hnumeric)
      · exact .inr (.inr hlater)

/-- **What a column holds in the end.**  A row that is missing stays missing. The cell of any other row
is that of its value and the type of the column, in whatever steps it came to this type: a truth value
in numbers is 0 or 1, an integer among doubles is exactly that double, and a text among texts is
itself, as a number is its text there. Only of a truth value among texts it matters whether the column
was numeric at some time since. -/
theorem final_of_history {start column : Column} {entries : List (Option Cell)}
    (h : start.growAll? entries = some column) :
    column.size = start.size + entries.length ∧
    (∀ row, start.MissingAt row → column.MissingAt row) ∧
    (∀ front rest, entries = front ++ none :: rest →
      column.MissingAt (start.size + front.length)) ∧
    (∀ front cell rest, entries = front ++ some cell :: rest →
      ∃ stored numeric, start.growAll? (front ++ [some cell]) = some stored ∧
        (numeric = true ↔ stored.IsNumericWithin rest) ∧
        column.cells[start.size + front.length]? = some (cell.final numeric column.type)) ∧
    ∀ n : Int32, (Binary64.ofInt n.toInt).IsExactly n.toInt := by
  refine ⟨growAll?_size h, fun row hmissing => hmissing.growAll? h, ?_, ?_, fun n => ?_⟩
  · rintro front rest rfl
    obtain ⟨before, stored, hsize, hstored, -, hresult⟩ := growAll?_split h
    cases hstored
    rw [← hsize]
    exact insertMissing_last.growAll? hresult
  · rintro front cell rest rfl
    obtain ⟨before, stored, hsize, hstored, hfront, hresult⟩ := growAll?_split h
    obtain ⟨numeric, hnumeric, hcarries⟩ := (carries_of_insert? hstored).growAll? hresult
    refine ⟨stored, numeric, hfront, ?_, ?_⟩
    · rw [hnumeric]
      exact or_iff_right_of_imp isNumericWithin_of_isNumeric
    · rw [← hsize]
      exact hcarries.getElem?_eq
  · exact Binary64.isExactly_ofInt (Nat.lt_trans (Cell.natAbs_toInt_lt n) (by decide))

/-- Of two truth values among texts one was a number for some time; the integer was a double. -/
theorem final_of_history_mixed :
    ∃ (start column : Column) (rest : List (Option Cell)),
      start = startAt 1 "a" (.bool true) ∧
      rest = [none, some (.int32 1230000000), some (.double ⟨0x3FE0000000000000⟩),
        some (.string "x"), some (.bool false)] ∧
      column = ⟨"a", .string, #[.missing, .string "1", .missing, .string "1230000000",
        .string "0.5", .string "x", .string "false"]⟩ ∧
      start.growAll? (some (.bool true) :: rest) = some column ∧
      column.size = 7 ∧ column.MissingAt 0 ∧ column.MissingAt 2 ∧
      ∃ stored numeric, start.growAll? [some (.bool true)] = some stored ∧
        (numeric = true ↔ stored.IsNumericWithin rest) ∧
        column.cells[1]? = some ((Cell.bool true).final numeric column.type) := by
  have hcolumn : (startAt 1 "a" (.bool true)).growAll? [some (.bool true), none,
      some (.int32 1230000000), some (.double ⟨0x3FE0000000000000⟩), some (.string "x"),
      some (.bool false)] = some ⟨"a", .string, #[.missing, .string "1", .missing,
        .string "1230000000", .string "0.5", .string "x", .string "false"]⟩ := by
    with_unfolding_all rfl
  obtain ⟨hsize, hstart, hnone, hsome, -⟩ := final_of_history hcolumn
  exact ⟨_, _, _, rfl, rfl, rfl, hcolumn, hsize, hstart 0 rfl, hnone [_] _ rfl, hsome [] _ _ rfl⟩

end Column

end DocTable

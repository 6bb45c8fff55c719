import DocTable.Proofs.Table.Row
import Mathlib.Data.List.Perm.Basic

/-!
# The type of a column and the cells that it takes

A cell is refused by the type of the column, and the type comes of the cells before it.

* `Cell.Joins` — what a cell has to be for a column of a type to take it. No cell that is taken
  changes which cells are taken next.
* `Column.insert_of_joins`, `Column.insert_of_not_joins` — one insertion: one cell more, or the
  column as it was.
* `Column.insertAll?_of_joins`, `Column.joins_of_insertAll?` — any number of them.
* `typing_of_history` — what a column takes behind its first cell, in whatever order, and the type
  that it has then.
-/

set_option autoImplicit false

namespace DocTable

namespace ColumnType

/-- Truth values, numbers and texts: the types that give way to one another. -/
def IsPlain (type : ColumnType) : Prop :=
  type ≠ .dateTime ∧ type ≠ .list

instance (type : ColumnType) : Decidable type.IsPlain :=
  inferInstanceAs (Decidable (_ ∧ _))

/-- Of two plain types a column takes the wider one. -/
theorem widened_eq_of_isPlain {type : ColumnType} {cell : Cell} (htype : type.IsPlain)
    (hcell : cell.type.IsPlain) :
    type.widened cell = if type.width < cell.type.width then cell.type else type := by
  cases type <;> cases cell <;> simp_all [IsPlain, widened, Cell.type, width]

theorem eq_of_width_eq {type other : ColumnType} (htype : type.IsPlain) (hother : other.IsPlain)
    (h : type.width = other.width) : type = other := by
  cases type <;> cases other <;> simp_all [IsPlain, width]

/-- The type is the greatest among those of the cells, in the order truth value, number of 32 bits,
double, text. -/
def IsWidest (type : ColumnType) (cells : List Cell) : Prop :=
  (∃ cell ∈ cells, cell.type = type) ∧ ∀ cell ∈ cells, cell.type.width ≤ type.width

theorem IsWidest.eq_of_perm {type other : ColumnType} {cells others : List Cell}
    (h : type.IsWidest cells) (hother : other.IsWidest others) (hperm : others.Perm cells)
    (hplain : ∀ cell ∈ cells, cell.type.IsPlain) : other = type := by
  obtain ⟨⟨cell, hcell, rfl⟩, hle⟩ := h
  obtain ⟨⟨last, hlast, rfl⟩, hles⟩ := hother
  have hlast' := hperm.mem_iff.1 hlast
  refine eq_of_width_eq (hplain last hlast') (hplain cell hcell) (Nat.le_antisymm ?_ ?_)
  · exact hle last hlast'
  · exact hles cell (hperm.mem_iff.2 hcell)

theorem isPlain_widened {type : ColumnType} {cell : Cell} (htype : type.IsPlain) :
    (type.widened cell).IsPlain := by
  cases type <;> cases cell <;> simp_all [IsPlain, widened]

theorem widened_of_not_isPlain {type : ColumnType} (htype : ¬ type.IsPlain) (cell : Cell) :
    type.widened cell = type := by
  cases type <;> simp_all [IsPlain, widened]

/-- Cells of plain types leave a column at the widest type. -/
theorem isWidest_foldl {first : Cell} (hfirst : first.type.IsPlain) {cells : List Cell}
    (hcells : ∀ cell ∈ cells, cell.type.IsPlain) :
    (cells.foldl widened first.type).IsWidest (first :: cells) := by
  induction cells generalizing first with
  | nil => exact ⟨⟨first, List.mem_cons_self, rfl⟩, by simp⟩
  | cons cell cells ih =>
    obtain ⟨hcell, hcells⟩ := List.forall_mem_cons.1 hcells
    rw [List.foldl_cons, widened_eq_of_isPlain hfirst hcell]
    split
    · rename_i hlt
      obtain ⟨⟨widest, hwidest, hsame⟩, hle⟩ := ih hcell hcells
      obtain ⟨hcell_le, hcells_le⟩ := List.forall_mem_cons.1 hle
      refine ⟨⟨widest, List.mem_cons_of_mem first hwidest, hsame⟩, List.forall_mem_cons.2 ⟨?_, hle⟩⟩
      exact Nat.le_trans (Nat.le_of_lt hlt) hcell_le
    · rename_i hge
      obtain ⟨⟨widest, hwidest, hsame⟩, hle⟩ := ih hfirst hcells
      obtain ⟨hfirst_le, hcells_le⟩ := List.forall_mem_cons.1 hle
      refine ⟨⟨widest, ?_, hsame⟩, List.forall_mem_cons.2 ⟨hfirst_le, List.forall_mem_cons.2
        ⟨Nat.le_trans (Nat.le_of_not_lt hge) hfirst_le, hcells_le⟩⟩⟩
      rcases List.mem_cons.1 hwidest with rfl | hmem
      · exact List.mem_cons_self
      · exact List.mem_cons_of_mem _ (List.mem_cons_of_mem _ hmem)

theorem foldl_widened_of_not_isPlain {type : ColumnType} (htype : ¬ type.IsPlain)
    (cells : List Cell) : cells.foldl widened type = type := by
  induction cells with
  | nil => rfl
  | cons cell cells ih => rw [List.foldl_cons, widened_of_not_isPlain htype, ih]

end ColumnType

namespace Cell

/-! ## What a column takes -/

/-- The cell is missing or of the type, or both are plain. -/
def Joins (cell : Cell) (type : ColumnType) : Prop :=
  cell = missing ∨ cell.type = type ∨ cell.type.IsPlain ∧ type.IsPlain

instance (cell : Cell) (type : ColumnType) : Decidable (cell.Joins type) :=
  inferInstanceAs (Decidable (_ ∨ _))

theorem joins_of_isPlain {cell : Cell} {type : ColumnType} (htype : type.IsPlain) :
    cell.Joins type ↔ cell.type.IsPlain := by
  constructor
  · rintro (rfl | rfl | ⟨hcell, -⟩)
    · decide
    · exact htype
    · exact hcell
  · intro hcell
    exact .inr (.inr ⟨hcell, htype⟩)

theorem exists_convert?_iff {cell : Cell} {type : ColumnType} :
    (∃ kept, cell.convert? (type.widened cell) = some kept) ↔ cell.Joins type := by
  cases type <;> cases cell <;>
    simp [convert?, ColumnType.widened, Joins, Cell.type, ColumnType.IsPlain]

/-- A column is widened for no cell that it refuses. -/
theorem widened_of_not_joins {cell : Cell} {type : ColumnType} (h : ¬ cell.Joins type) :
    type.widened cell = type := by
  cases type <;> cases cell <;>
    simp_all [ColumnType.widened, Joins, Cell.type, ColumnType.IsPlain]

/-- No cell changes what is taken behind it. -/
theorem joins_widened {cell : Cell} {type : ColumnType} (other : Cell) :
    cell.Joins (type.widened other) ↔ cell.Joins type := by
  by_cases htype : type.IsPlain
  · rw [joins_of_isPlain htype, joins_of_isPlain (ColumnType.isPlain_widened htype)]
  · rw [ColumnType.widened_of_not_isPlain htype]

theorem joins_foldl_widened {cell : Cell} {type : ColumnType} (others : List Cell) :
    cell.Joins (others.foldl ColumnType.widened type) ↔ cell.Joins type := by
  induction others generalizing type with
  | nil => rfl
  | cons other others ih => rw [List.foldl_cons, ih, joins_widened]

/-- What may stand behind the first cell of a column: behind truth values, numbers and texts no date
and no value that is kept whole, and behind one of these its like. A column that starts with a
missing cell is one of truth values. -/
def Admits (first : Cell) (later : List Cell) : Prop :=
  first.type.IsPlain ∧ (∀ cell ∈ later, cell.type.IsPlain) ∨
    first.type = .dateTime ∧ (∀ cell ∈ later, cell.type = .dateTime ∨ cell = missing) ∨
    first.type = .list ∧ ∀ cell ∈ later, cell.type = .list ∨ cell = missing

instance (first : Cell) (later : List Cell) : Decidable (first.Admits later) :=
  inferInstanceAs (Decidable (_ ∨ _))

theorem Admits.perm {first : Cell} {later other : List Cell} (h : first.Admits later)
    (hperm : other.Perm later) : first.Admits other := by
  simp only [Admits, hperm.mem_iff]
  exact h

theorem admits_iff {first : Cell} {later : List Cell} :
    first.Admits later ↔ ∀ cell ∈ later, cell.Joins first.type := by
  by_cases hfirst : first.type.IsPlain
  · simp only [joins_of_isPlain hfirst]
    constructor
    · rintro (⟨-, hlater⟩ | ⟨hdate, -⟩ | ⟨hlist, -⟩)
      · exact hlater
      · exact absurd hdate hfirst.1
      · exact absurd hlist hfirst.2
    · intro hlater
      exact .inl ⟨hfirst, hlater⟩
  · cases htype : first.type <;> simp_all [Admits, Joins, ColumnType.IsPlain, or_comm]

end Cell

namespace Column

variable {column wide : Column} {cell : Cell}

/-! ## One insertion -/

/-- **A cell that is taken** is one cell more, and widens the column if need be. -/
theorem insert_of_joins (h : cell.Joins column.type) :
    ∃ wide, column.insert? cell = some wide ∧ column.insert cell = ⟨wide, none⟩ ∧
      wide.name = column.name ∧ wide.size = column.size + 1 ∧
      wide.type = column.type.widened cell := by
  obtain ⟨kept, hkept⟩ := Cell.exists_convert?_iff.2 h
  have hwide := insert?_of_convert? hkept
  exact ⟨_, hwide, insert_of_convert? hkept, insert?_name hwide, insert?_size hwide, widen_type _⟩

/-- **A cell that is refused** is handed back, and the column is as it was: it would have been widened
only for a cell that it takes. -/
theorem insert_of_not_joins (h : ¬ cell.Joins column.type) :
    column.insert cell = ⟨column, some cell⟩ := by
  have hnone : cell.convert? (column.type.widened cell) = none := by
    rw [Option.eq_none_iff_forall_ne_some]
    intro kept hkept
    exact h (Cell.exists_convert?_iff.1 ⟨kept, hkept⟩)
  rw [insert_of_convert?_eq_none hnone, Cell.widened_of_not_joins h, widen_self]

theorem joins_of_insert? (h : column.insert? cell = some wide) : cell.Joins column.type := by
  obtain ⟨kept, hkept, -⟩ := insert?_eq_some h
  exact Cell.exists_convert?_iff.1 ⟨kept, hkept⟩

/-! ## Any number of insertions -/

/-- The column with cells inserted one after another; none as soon as one is refused. -/
def insertAll? (column : Column) (cells : List Cell) : Option Column :=
  cells.foldlM insert? column

variable {cells : List Cell}

theorem insertAll?_cons : column.insertAll? (cell :: cells) =
    (column.insert? cell).bind fun wide => wide.insertAll? cells :=
  List.foldlM_cons

theorem insertAll?_of_joins (h : ∀ cell ∈ cells, cell.Joins column.type) :
    ∃ result, column.insertAll? cells = some result ∧ result.name = column.name ∧
      result.size = column.size + cells.length ∧
      result.type = cells.foldl ColumnType.widened column.type := by
  induction cells generalizing column with
  | nil => exact ⟨column, rfl, rfl, rfl, rfl⟩
  | cons cell cells ih =>
    obtain ⟨hcell, hcells⟩ := List.forall_mem_cons.1 h
    obtain ⟨wide, hwide, -, hname, hsize, htype⟩ := insert_of_joins hcell
    have hjoins : ∀ cell ∈ cells, cell.Joins wide.type := by
      intro other hother
      rw [htype, Cell.joins_widened]
      exact hcells other hother
    obtain ⟨result, hresult, hnames, hsizes, htypes⟩ := ih hjoins
    refine ⟨result, ?_, hnames.trans hname, ?_, ?_⟩
    · rw [insertAll?_cons, hwide, Option.bind_some, hresult]
    · rw [hsizes, hsize, List.length_cons]
      omega
    · rw [htypes, htype, List.foldl_cons]

theorem joins_of_insertAll? {result : Column} (h : column.insertAll? cells = some result) :
    ∀ cell ∈ cells, cell.Joins column.type := by
  induction cells generalizing column with
  | nil => exact nofun
  | cons cell cells ih =>
    rw [insertAll?_cons] at h
    obtain ⟨wide, hwide, h⟩ := Option.bind_eq_some_iff.1 h
    refine List.forall_mem_cons.2 ⟨joins_of_insert? hwide, fun other hother => ?_⟩
    have hjoins := ih h other hother
    rwa [insert?_type hwide, Cell.joins_widened] at hjoins

/-! ## The history of a column -/

/-- The column that a cell starts in row `rows`. -/
def started (rows : Nat) (name : String) (first : Cell) : Column :=
  ((startAt rows name first).insert first).column

/-- A cell is never refused by the column that it starts. -/
theorem insert_startAt (rows : Nat) (name : String) (first : Cell) :
    (startAt rows name first).insert first = ⟨started rows name first, none⟩ ∧
      (started rows name first).name = name ∧ (started rows name first).size = rows + 1 ∧
      (started rows name first).type = first.type := by
  have hjoins : first.Joins (startAt rows name first).type := .inr (.inl rfl)
  obtain ⟨wide, -, hwide, hname, hsize, htype⟩ := insert_of_joins hjoins
  have hstarted : started rows name first = wide := congrArg Insertion.column hwide
  rw [hstarted, hwide, hname, hsize, htype, startAt_size]
  exact ⟨rfl, rfl, rfl, ColumnType.widened_type first⟩

variable {rows : Nat} {name : String} {first : Cell} {later : List Cell}

theorem exists_history_iff :
    (∃ column, (started rows name first).insertAll? later = some column) ↔ first.Admits later := by
  obtain ⟨-, -, -, htype⟩ := insert_startAt rows name first
  rw [Cell.admits_iff, ← htype]
  constructor
  · rintro ⟨column, hcolumn⟩
    exact joins_of_insertAll? hcolumn
  · intro hjoins
    obtain ⟨column, hcolumn, -⟩ := insertAll?_of_joins hjoins
    exact ⟨column, hcolumn⟩

/-- What is left of a history: the name, the number of cells and the type. -/
theorem history_eq_some (h : (started rows name first).insertAll? later = some column) :
    column.name = name ∧ column.size = rows + 1 + later.length ∧
      column.type = later.foldl ColumnType.widened first.type := by
  obtain ⟨-, hname, hsize, htype⟩ := insert_startAt rows name first
  obtain ⟨result, hresult, hnames, hsizes, htypes⟩ := insertAll?_of_joins (joins_of_insertAll? h)
  rw [h] at hresult
  cases hresult
  rw [hnames, hsizes, htypes, hname, hsize, htype]
  exact ⟨rfl, rfl, rfl⟩

/-- Behind a first cell of a plain type the column has the widest type of its cells. -/
theorem isWidest_of_history (hfirst : first.type.IsPlain)
    (h : (started rows name first).insertAll? later = some column) :
    column.type.IsWidest (first :: later) := by
  obtain ⟨-, -, htype⟩ := history_eq_some h
  rw [htype]
  refine ColumnType.isWidest_foldl hfirst fun cell hcell => ?_
  have hjoins := Cell.admits_iff.1 (exists_history_iff.1 ⟨column, h⟩) cell hcell
  exact (Cell.joins_of_isPlain hfirst).1 hjoins

/-- The order of the later cells has no say in the type. -/
theorem type_of_perm {other : List Cell} (hperm : other.Perm later) {reordered : Column}
    (h : (started rows name first).insertAll? later = some column)
    (hother : (started rows name first).insertAll? other = some reordered) :
    reordered.type = column.type := by
  by_cases hfirst : first.type.IsPlain
  · refine (isWidest_of_history hfirst h).eq_of_perm (isWidest_of_history hfirst hother)
      (hperm.cons first) (List.forall_mem_cons.2 ⟨hfirst, fun cell hcell => ?_⟩)
    have hjoins := Cell.admits_iff.1 (exists_history_iff.1 ⟨column, h⟩) cell hcell
    exact (Cell.joins_of_isPlain hfirst).1 hjoins
  · rw [(history_eq_some h).2.2, (history_eq_some hother).2.2,
      ColumnType.foldl_widened_of_not_isPlain hfirst, ColumnType.foldl_widened_of_not_isPlain hfirst]

/-- **The history of a column.**  A first cell is never refused, and those behind it are taken exactly
as long as the first one admits them. The column then has the widest type of its cells, or that of the
first one if this is not plain; the order of the later cells has no say in either. Each cell that is
taken is one cell more, and the first that is not admitted is handed back by a column that is as it
was. -/
theorem typing_of_history (rows : Nat) (name : String) (first : Cell) :
    (startAt rows name first).insert first = ⟨started rows name first, none⟩ ∧
    ∀ later : List Cell,
      ((∃ column, (started rows name first).insertAll? later = some column) ↔
        first.Admits later) ∧
      ∀ column, (started rows name first).insertAll? later = some column →
        column.name = name ∧ column.size = rows + 1 + later.length ∧
        (first.type.IsPlain → column.type.IsWidest (first :: later)) ∧
        (¬ first.type.IsPlain → column.type = first.type) ∧
        (∀ other : List Cell, other.Perm later →
          ∃ reordered, (started rows name first).insertAll? other = some reordered ∧
            reordered.type = column.type) ∧
        ∀ cell : Cell,
          (first.Admits (later ++ [cell]) →
            ∃ wide, column.insert cell = ⟨wide, none⟩ ∧ wide.size = column.size + 1) ∧
          (¬ first.Admits (later ++ [cell]) → column.insert cell = ⟨column, some cell⟩) := by
  refine ⟨(insert_startAt rows name first).1, fun later => ⟨exists_history_iff, ?_⟩⟩
  intro column h
  have hadmits := exists_history_iff.1 ⟨column, h⟩
  obtain ⟨hname, hsize, htype⟩ := history_eq_some h
  refine ⟨hname, hsize, fun hfirst => isWidest_of_history hfirst h, fun hfirst => ?_,
    fun other hperm => ?_, fun cell => ?_⟩
  · rw [htype, ColumnType.foldl_widened_of_not_isPlain hfirst]
  · obtain ⟨reordered, hreordered⟩ := exists_history_iff.2 (hadmits.perm hperm)
    exact ⟨reordered, hreordered, type_of_perm hperm h hreordered⟩
  · -- the next cell is admitted if and only if the column takes it
    have hnext : first.Admits (later ++ [cell]) ↔ cell.Joins column.type := by
      rw [htype, Cell.joins_foldl_widened, Cell.admits_iff, List.forall_mem_append,
        List.forall_mem_singleton]
      exact and_iff_right (Cell.admits_iff.1 hadmits)
    rw [hnext]
    refine ⟨fun hjoins => ?_, insert_of_not_joins⟩
    obtain ⟨wide, -, hwide, -, hwide_size, -⟩ := insert_of_joins hjoins
    exact ⟨wide, hwide, hwide_size⟩

/-- A column that a missing cell starts is widened twice, and a date finds it as it was. -/
theorem typing_of_history_widened :
    ∃ column, (started 2 "a" .missing).insertAll? [.bool true, .int32 5, .missing, .string "x"] =
        some column ∧
      column.size = 7 ∧
      column.type.IsWidest [.missing, .bool true, .int32 5, .missing, .string "x"] ∧
      column.insert (.dateTime 0) = ⟨column, some (.dateTime 0)⟩ := by
  obtain ⟨-, hlater⟩ := typing_of_history 2 "a" .missing
  obtain ⟨htaken, htyped⟩ := hlater [.bool true, .int32 5, .missing, .string "x"]
  obtain ⟨column, hcolumn⟩ := htaken.2 (by decide)
  obtain ⟨-, hsize, hwidest, -, -, hnext⟩ := htyped column hcolumn
  exact ⟨column, hcolumn, hsize, hwidest (by decide), (hnext _).2 (by decide)⟩

end Column

end DocTable

import DocTable.Table.Column

/-!
# What becomes of a cell

A cell is converted when it is stored, and again each time that its column is widened.

* `Cell.StoredAs` — the cells as which a cell may stand in a column of a type.
* `StoredAs.eq_of_type_eq` — in a column of its own type it stands as it is, whatever the column
  was before.
* `StoredAs.convert?_eq` — only a text can tell how it came about: in a column of any other type
  the cell is the direct conversion.
-/

set_option autoImplicit false

namespace DocTable

namespace ColumnType

/-- How far a type is from the narrowest one. -/
def width : ColumnType → Nat
  | bool => 0
  | int32 => 1
  | double => 2
  | dateTime => 3
  | string => 3
  | list => 3

theorem widened_eq_or_width_lt (type : ColumnType) (cell : Cell) :
    type.widened cell = type ∨ type.width < (type.widened cell).width := by
  cases type <;> cases cell <;> simp [widened, width]

theorem widened_missing (type : ColumnType) : type.widened .missing = type := by
  cases type <;> rfl

theorem widened_type (cell : Cell) : cell.type.widened cell = cell.type := by
  cases cell <;> rfl

end ColumnType

namespace Cell

theorem isMissing_iff {cell : Cell} : cell.isMissing = true ↔ cell = missing := by
  cases cell <;> simp [isMissing]

/-! ## One conversion -/

@[simp] theorem convert?_missing (type : ColumnType) : convert? type missing = some missing := by
  cases type <;> rfl

theorem convert?_type (cell : Cell) : convert? cell.type cell = some cell := by
  cases cell <;> rfl

theorem missing_iff_of_convert? {type : ColumnType} {cell kept : Cell}
    (h : convert? type cell = some kept) : kept = missing ↔ cell = missing := by
  cases type <;> cases cell <;> simp [convert?] at h <;> subst h <;> simp

theorem type_of_convert? {type : ColumnType} {cell kept : Cell}
    (h : convert? type cell = some kept) : kept = missing ∨ kept.type = type := by
  cases type <;> cases cell <;> simp [convert?] at h <;> subst h <;> simp [Cell.type]

/-- Nothing is converted to a narrower type, or to another one of the same width. -/
theorem width_of_convert? {type : ColumnType} {cell kept : Cell}
    (h : convert? type cell = some kept) (hcell : cell ≠ missing) :
    cell.type.width < type.width ∨ cell.type = type := by
  cases type <;> cases cell <;> simp [convert?] at h hcell <;> simp [Cell.type, ColumnType.width]

/-- A cell of a column can be converted to whatever type the column is widened to. -/
theorem convert?_widened {type : ColumnType} {cell : Cell} (other : Cell)
    (h : cell = missing ∨ cell.type = type) :
    ∃ kept, convert? (type.widened other) cell = some kept := by
  rcases h with rfl | rfl
  · exact ⟨missing, convert?_missing _⟩
  · cases cell <;> cases other <;> exact ⟨_, rfl⟩

/-- Numbers do not tell in how many steps they were widened. -/
theorem convert?_trans {middle type : ColumnType} {cell kept last : Cell}
    (h : convert? middle cell = some kept) (hlast : convert? type kept = some last)
    (htype : type ≠ .string) : convert? type cell = some last := by
  cases middle <;> cases cell <;> simp only [convert?, Option.some.injEq, reduceCtorEq] at h <;>
    subst h <;> cases type <;> simp_all [convert?]
  all_goals
    subst hlast
    split <;> rfl

/-! ## All conversions of a cell -/

/-- The cell stands in a column of a type as another one: it was stored there so, or it stood as
some cell in the column before the column was widened. -/
inductive StoredAs (cell : Cell) : ColumnType → Cell → Prop
  | stored {type : ColumnType} {kept : Cell} :
      convert? type cell = some kept → StoredAs cell type kept
  | widened {type : ColumnType} {kept last : Cell} (other : Cell) : StoredAs cell type kept →
      convert? (type.widened other) kept = some last → StoredAs cell (type.widened other) last

namespace StoredAs

variable {cell kept : Cell} {type : ColumnType}

theorem missing_iff (h : StoredAs cell type kept) : kept = missing ↔ cell = missing := by
  induction h with
  | stored h => exact missing_iff_of_convert? h
  | widened _ _ hlast ih => exact (missing_iff_of_convert? hlast).trans ih

theorem type_eq (h : StoredAs cell type kept) : kept = missing ∨ kept.type = type := by
  cases h with
  | stored h => exact type_of_convert? h
  | widened _ _ hlast => exact type_of_convert? hlast

/-- A column never gets narrower: where it is back at the type of the cell, it was never wider. -/
theorem width_lt_or_eq (h : StoredAs cell type kept) (hcell : cell ≠ missing) :
    cell.type.width < type.width ∨ (cell.type = type ∧ kept = cell) := by
  induction h with
  | @stored type kept h =>
    rcases width_of_convert? h hcell with hlt | rfl
    · exact .inl hlt
    · rw [convert?_type] at h
      exact .inr ⟨rfl, (Option.some.inj h).symm⟩
  | @widened type kept last other _ hlast ih =>
    rcases type.widened_eq_or_width_lt other with hsame | hwider
    · rw [hsame] at hlast ⊢
      rcases ih with hlt | ⟨rfl, rfl⟩
      · exact .inl hlt
      · rw [convert?_type] at hlast
        exact .inr ⟨rfl, (Option.some.inj hlast).symm⟩
    · rcases ih with hlt | ⟨rfl, -⟩
      · exact .inl (Nat.lt_trans hlt hwider)
      · exact .inl hwider

theorem eq_of_type_eq (h : StoredAs cell type kept) (htype : type = cell.type) :
    kept = cell := by
  by_cases hcell : cell = missing
  · rw [h.missing_iff.2 hcell, hcell]
  · rcases h.width_lt_or_eq hcell with hlt | ⟨-, heq⟩
    · rw [htype] at hlt
      exact absurd hlt (Nat.lt_irrefl _)
    · exact heq

/-- A value that is kept whole stands in a column of such values only, as it is. -/
theorem eq_list {v : Value} (h : StoredAs (list v) type kept) : type = .list ∧ kept = list v := by
  rcases h.width_lt_or_eq nofun with hlt | ⟨htype, heq⟩
  · cases type <;> cases hlt <;> contradiction
  · exact ⟨htype.symm, heq⟩

theorem convert?_eq (h : StoredAs cell type kept) (htype : type ≠ .string) :
    convert? type cell = some kept := by
  induction h with
  | stored h => exact h
  | @widened type kept last other _ hlast ih =>
    by_cases hstring : type = .string
    · subst hstring
      exact absurd (by cases other <;> rfl) htype
    · exact convert?_trans (ih hstring) hlast htype

end StoredAs

end Cell

end DocTable

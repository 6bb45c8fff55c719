import DocTable.Text.Width

/-!
# Grids of boxes

A grid shows records of cells in boxes drawn with lines. A cell may have several lines of text; it
starts at the top left of its box, with one blank on either side of the widest line of the column.
-/

set_option autoImplicit false

namespace DocTable.Grid

/-- The lines of a text. -/
def linesOf : List Char → List (List Char)
  | [] => [[]]
  | c :: text =>
    if c = '\n' then [] :: linesOf text
    else
      match linesOf text with
      | [] => [[c]]
      | line :: lines => (c :: line) :: lines

/-- The columns that a cell takes. -/
def cellWidth (cell : List (List Char)) : Nat :=
  (cell.map lineWidth).foldl max 0

/-- The width of every column of a grid. -/
def columnWidths (records : List (List (List (List Char)))) : List Nat :=
  records.foldl
    (fun widths record =>
      (List.range (max widths.length record.length)).map fun i =>
        max (widths.getD i 0) ((record[i]?.map cellWidth).getD 0))
    []

/-- A line of a grid between two records, or above or below them. -/
def rule (left middle right : Char) (widths : List Nat) : List Char :=
  left :: ((List.intercalate [middle] (widths.map fun w => List.replicate (w + 2) '─')) ++ [right])

/-- Line `i` of a cell, filled up to the width of its column. -/
def boxedLine (width i : Nat) (cell : List (List Char)) : List Char :=
  let line := cell.getD i []
  ' ' :: (line ++ List.replicate (width - lineWidth line + 1) ' ')

/-- The lines of a record. -/
def recordLines (widths : List Nat) (record : List (List (List Char))) : List (List Char) :=
  let height := (record.map List.length).foldl max 0
  (List.range height).map fun i =>
    '│' :: (List.intercalate ['│'] ((widths.zip record).map fun (w, cell) => boxedLine w i cell)
      ++ ['│'])

/-- The lines of a grid. -/
def lines (records : List (List String)) : List (List Char) :=
  let cells := records.map (·.map (linesOf ·.toList))
  let widths := columnWidths cells
  let between := rule '├' '┼' '┤' widths
  let inner := List.intercalate [between] (cells.map (recordLines widths))
  rule '┌' '┬' '┐' widths :: (inner ++ [rule '└' '┴' '┘' widths])

/-- A grid, every line ended. -/
def text (records : List (List String)) : String :=
  String.ofList ((lines records).flatMap (· ++ ['\n']))

end DocTable.Grid

import DocTable.Binary64.Shortest
import DocTable.Text.Integer

/-!
# Doubles as text

A finite double is written with the digits of its shortest decimal, either positionally or with an
exponent. A layout says where the one ends and the other begins and how each looks; the two layouts
of this library are `Layout.cell`, for the cells of a table, and `Layout.json`, for JSON numbers.
-/

set_option autoImplicit false

namespace DocTable.Binary64

/-- How a decimal is laid out as text. -/
structure Layout where
  /-- The least and the greatest exponent of a leading digit in positional writing. -/
  least : Int
  greatest : Int
  /-- Whether a whole number is followed by a fraction of one zero. -/
  wholeFraction : Bool
  /-- Whether a positive exponent carries a plus sign. -/
  exponentPlus : Bool
  /-- Which digit is written for a double halfway between two equally short decimals. -/
  tie : Tie

/-- Cells are positional from `1e-5` up to `1e15`, and whole numbers carry no fraction. -/
def Layout.cell : Layout := ⟨-5, 14, false, false, .upward⟩

/-- JSON numbers are positional from `1e-5` up to `1e16`, and a fraction marks them as doubles. -/
def Layout.json : Layout := ⟨-5, 15, true, true, .toEven⟩

/-- A decimal as text in the given layout. -/
def Layout.decimalText (layout : Layout) (d : Decimal) : String :=
  let digits := decimalDigits d.coefficient
  let leading := d.exponent + digits.length - 1
  if d.coefficient ≠ 0 ∧ (leading < layout.least ∨ layout.greatest < leading) then
    let fraction := digits.drop 1
    let mark : List Char := if fraction = [] then [] else '.' :: fraction
    let sign : String := if 0 < leading ∧ layout.exponentPlus then "+" else ""
    String.ofList (digits.take 1 ++ mark) ++ "e" ++ sign ++ intText leading
  else if 0 ≤ d.exponent then
    String.ofList (digits ++ List.replicate d.exponent.toNat '0')
      ++ (if layout.wholeFraction then ".0" else "")
  else if 0 ≤ leading then
    let whole := (leading + 1).toNat
    String.ofList (digits.take whole ++ '.' :: digits.drop whole)
  else
    String.ofList ('0' :: '.' :: (List.replicate (-leading - 1).toNat '0' ++ digits))

/-- A finite double as text in the given layout. -/
def Layout.text (layout : Layout) (x : Binary64) : String :=
  (if x.negative then "-" else "") ++ layout.decimalText (shortest layout.tie x.magnitude)

/-- A double as the text of a table cell. -/
def cellText (x : Binary64) : String :=
  if x.isNaN then "NaN"
  else if x.isFinite then Layout.cell.text x
  else if x.negative then "-Infinity" else "Infinity"

end DocTable.Binary64

import DocTable.Binary64.Basic

/-!
# The shortest decimal of a double

Among the decimals that read back as a given finite double, the shortest is found by trying grids of
powers of ten from coarse to fine: on each grid only the two neighbours of the double's exact value
can be the nearest, so the first grid on which a neighbour reads back gives the fewest digits. When
both do, the nearer is taken, and an exact tie goes as the caller says. A double has an exact
decimal, so the search always ends with one that reads back.
-/

set_option autoImplicit false

namespace DocTable

/-- The number `coefficient * 10 ^ exponent`. -/
structure Decimal where
  coefficient : Nat
  exponent : Int
  deriving DecidableEq, Repr

/-- Which of two equally near neighbours is taken. -/
inductive Tie where
  | upward
  | toEven
  deriving DecidableEq, Repr

namespace Binary64

/-- The neighbour of a magnitude's value on the grid of multiples of `10 ^ exponent` that reads back
as the magnitude, if one does. -/
def neighbour? (tie : Tie) (magnitude : Nat) (exponent : Int) : Option Decimal :=
  let value := valueOf magnitude
  let grid := Ratio.scaled 1 10 exponent
  let ratio := value.div grid
  let below := ratio.num / ratio.den
  let rest := ratio.num % ratio.den
  let readsBack (coefficient : Nat) : Bool := nearestDecimal coefficient exponent = magnitude
  let upper : Bool :=
    if readsBack below && readsBack (below + 1) then
      ratio.den < 2 * rest ||
        (ratio.den = 2 * rest && (tie = .upward || below % 2 = 1))
    else readsBack (below + 1)
  if upper then some ⟨below + 1, exponent⟩
  else if readsBack below then some ⟨below, exponent⟩
  else none

/-- A decimal exponent above that of the leading digit of a magnitude's value. -/
def leadingBound (magnitude : Nat) : Int :=
  let value := valueOf magnitude
  if value.den ≤ value.num then (Nat.log2 (value.num / value.den) : Int) * 1234 / 4096 + 2
  else 2 - (Nat.log2 (value.den / value.num) : Int) * 1233 / 4096

/-- The exact decimal of a magnitude's value. -/
def exactDecimal (magnitude : Nat) : Decimal :=
  let significand := significandOf magnitude
  let exponent := exponentOf magnitude
  if 0 ≤ exponent then ⟨significand <<< exponent.toNat, 0⟩
  else ⟨significand * Nat.pow 5 (-exponent).toNat, exponent⟩

/-- Tries grids from `10 ^ exponent` on, each ten times finer than the one before. -/
def searchDecimal (tie : Tie) (magnitude : Nat) : (grids : Nat) → (exponent : Int) → Decimal
  | 0, _ => exactDecimal magnitude
  | grids + 1, exponent =>
    match neighbour? tie magnitude exponent with
    | some decimal => decimal
    | none => searchDecimal tie magnitude grids (exponent - 1)

/-- The decimal of a finite magnitude with the fewest digits. -/
def shortest (tie : Tie) (magnitude : Nat) : Decimal :=
  if magnitude = 0 then ⟨0, 0⟩
  else searchDecimal tie magnitude 24 (leadingBound magnitude)

end Binary64

end DocTable

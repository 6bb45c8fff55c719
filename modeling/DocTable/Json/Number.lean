import DocTable.Json.Basic
import DocTable.Text.Integer

/-!
# Reading JSON numbers

A number without fraction and exponent that fits in sixty-four bits is an integer; any other is a
double. The digits are gathered into a significand of sixty-four bits, from the left, as long as it
does not overflow; digits beyond that only move the exponent or are dropped. The significand is
rounded to a double and scaled by a power of ten, itself a double, and every step rounds, so the
result may differ from the nearest double in its last place. A result beyond the finite doubles is
refused.
-/

set_option autoImplicit false

namespace DocTable.Json

/-- The parts of a number as written: its digits before and after the point and its exponent. -/
structure Numeral where
  negative : Bool
  whole : List Char
  fraction : Option (List Char)
  exponent : Option Int

namespace Numeral

/-- Gathers digits behind a significand while it stays below `2 ^ 64`, and counts them. -/
def gather : (significand taken : Nat) → List Char → Nat × Nat
  | significand, taken, [] => (significand, taken)
  | significand, taken, c :: digits =>
    let next := significand * 10 + (digitIn? 10 c).getD 0
    if 0x10000000000000000 ≤ next then (significand, taken) else gather next (taken + 1) digits

/-- The double nearest to a power of ten. -/
def powerOfTen (n : Nat) : Binary64 :=
  Binary64.ofDecimal false 1 n

/-- The greatest exponent of ten that one step scales by. -/
def step : Nat := 308

/-- A positive double times a power of ten, each step rounded. The powers below `10 ^ -308` take a
step of their own, and two such steps leave nothing of a significand of sixty-four bits. -/
def scale (x : Binary64) (exponent : Int) : Option Binary64 :=
  if x.magnitude = 0 then some x
  else if 0 ≤ exponent then
    if step < exponent.toNat then none
    else
      let scaled := x.mul (powerOfTen exponent.toNat)
      if scaled.isFinite then some scaled else none
  else
    let down := (-exponent).toNat
    if down ≤ step then some (x.div (powerOfTen down))
    else if down ≤ 2 * step then
      some ((x.div (powerOfTen step)).div (powerOfTen (down - step)))
    else some (Binary64.zero false)

/-- The double of a significand and an exponent of ten. -/
def real? (negative : Bool) (significand : Nat) (exponent : Int) : Option Number := do
  let x ← scale (Binary64.ofInt significand) exponent
  let signed := if negative then x.neg else x
  if finite : signed.isFinite then some (.real signed finite) else none

/-- The number that a numeral denotes, unless it is beyond the finite doubles. A minus sign before
an integer zero makes it the negative zero of the doubles. -/
def value? (numeral : Numeral) : Option Number :=
  let (significand, taken) := gather 0 0 numeral.whole
  let dropped := numeral.whole.length - taken
  match numeral.fraction, numeral.exponent with
  | none, none =>
    let n : Int := if numeral.negative then -significand else significand
    if inRange : IntegerInRange n then
      if dropped = 0 ∧ (numeral.negative → significand ≠ 0) then some (.integer n inRange)
      else real? numeral.negative significand dropped
    else real? numeral.negative significand dropped
  | fraction, exponent =>
    let (significand, places) := gather significand 0 (fraction.getD [])
    real? numeral.negative significand (dropped - places + exponent.getD 0)

end Numeral

end DocTable.Json

/-!
# Double-precision numbers

A double is its 64 bits: a sign, eleven exponent bits and fifty-two fraction bits. The bits below
the sign, read as a natural number, are its *magnitude*; magnitudes are ordered as the numbers they
stand for, the infinity comes after every finite one, and what comes after the infinity is not a
number. A finite double is `significand * 2 ^ exponent`.

All arithmetic here is exact: an operation computes a ratio of natural numbers and rounds once, to
the nearest double, ties to the even significand.
-/

set_option autoImplicit false

namespace DocTable

/-- A double-precision number, as its bits. -/
structure Binary64 where
  bits : UInt64
  deriving DecidableEq, Repr

namespace Binary64

/-- The number of fraction bits, and the first magnitude with a full significand. -/
def hidden : Nat := 1 <<< 52

/-- The magnitude of the infinities. -/
def infinityMagnitude : Nat := 2047 <<< 52

/-- The bit that carries the sign. -/
def signBit : Nat := 1 <<< 63

/-- A double of the given sign and magnitude. -/
def ofMagnitude (negative : Bool) (magnitude : Nat) : Binary64 :=
  ⟨UInt64.ofNat ((if negative then signBit else 0) + magnitude)⟩

/-- The bits below the sign. -/
def magnitude (x : Binary64) : Nat :=
  x.bits.toNat % signBit

/-- Whether the sign bit is set. -/
def negative (x : Binary64) : Bool :=
  signBit ≤ x.bits.toNat

/-- A double is its sign and its magnitude. -/
theorem ofMagnitude_magnitude (x : Binary64) : ofMagnitude x.negative x.magnitude = x := by
  obtain ⟨bits⟩ := x
  have hlt := bits.toNat_lt
  have hbits : (if negative ⟨bits⟩ then signBit else 0) + magnitude ⟨bits⟩ = bits.toNat := by
    have hsign : signBit = 2 ^ 63 := rfl
    simp only [negative, magnitude, decide_eq_true_eq]
    split
    · rename_i h
      rw [hsign] at h ⊢
      omega
    · rename_i h
      rw [hsign] at h ⊢
      omega
  rw [ofMagnitude, hbits, UInt64.ofNat_toNat]

/-- Whether the double is a number. -/
def isNaN (x : Binary64) : Bool :=
  infinityMagnitude < x.magnitude

/-- Whether the double is neither an infinity nor outside the numbers. -/
def isFinite (x : Binary64) : Bool :=
  x.magnitude < infinityMagnitude

/-- The quiet not-a-number without a payload. -/
def nan : Binary64 := ofMagnitude false (infinityMagnitude + (1 <<< 51))

/-- The infinity of the given sign. -/
def infinity (negative : Bool) : Binary64 := ofMagnitude negative infinityMagnitude

/-- The zero of the given sign. -/
def zero (negative : Bool) : Binary64 := ofMagnitude negative 0

/-- The significand of a finite magnitude. -/
def significandOf (magnitude : Nat) : Nat :=
  if magnitude < hidden then magnitude else hidden + magnitude % hidden

/-- The power of two that scales the significand of a finite magnitude. -/
def exponentOf (magnitude : Nat) : Int :=
  (max 1 (magnitude / hidden) : Nat) - 1075

/-- A nonnegative ratio of natural numbers. -/
structure Ratio where
  num : Nat
  den : Nat

/-- The ratio `n * base ^ exponent`. -/
def Ratio.scaled (n base : Nat) (exponent : Int) : Ratio :=
  ⟨n * Nat.pow base exponent.toNat, Nat.pow base (-exponent).toNat⟩

/-- The product of two ratios. -/
def Ratio.mul (r s : Ratio) : Ratio := ⟨r.num * s.num, r.den * s.den⟩

/-- The quotient of two ratios. -/
def Ratio.div (r s : Ratio) : Ratio := ⟨r.num * s.den, r.den * s.num⟩

/-- The exact value of a finite magnitude. -/
def valueOf (magnitude : Nat) : Ratio :=
  Ratio.scaled (significandOf magnitude) 2 (exponentOf magnitude)

/-- The natural number nearest to `num / den`, the even one of two that are as near. -/
def roundHalfEven (num den : Nat) : Nat :=
  let whole := num / den
  let rest := num % den
  if 2 * rest < den then whole
  else if den < 2 * rest then whole + 1
  else whole + whole % 2

/-- The exponent of the power of two at or below a positive ratio. -/
def Ratio.log2 (r : Ratio) : Int :=
  let guess : Int := (Nat.log2 r.num : Int) - Nat.log2 r.den
  if r.den <<< guess.toNat ≤ r.num <<< (-guess).toNat then guess else guess - 1

/-- The magnitude nearest to a ratio, the infinity's when the ratio is beyond every finite one. -/
def Ratio.nearest (r : Ratio) : Nat :=
  if r.num = 0 then 0
  else
    let exponent := max (r.log2 - 52) (-1074)
    let significand :=
      roundHalfEven (r.num <<< (-exponent).toNat) (r.den <<< exponent.toNat)
    min ((exponent + 1074).toNat * hidden + significand) infinityMagnitude

/-- The double nearest to an integer. -/
def ofInt (n : Int) : Binary64 :=
  ofMagnitude (n < 0) (Ratio.nearest ⟨n.natAbs, 1⟩)

/-- The product of two finite doubles. -/
def mul (x y : Binary64) : Binary64 :=
  ofMagnitude (x.negative != y.negative)
    ((valueOf x.magnitude).mul (valueOf y.magnitude)).nearest

/-- The quotient of a finite double by a finite double other than zero. -/
def div (x y : Binary64) : Binary64 :=
  ofMagnitude (x.negative != y.negative)
    ((valueOf x.magnitude).div (valueOf y.magnitude)).nearest

/-- The double of the opposite sign. -/
def neg (x : Binary64) : Binary64 :=
  ofMagnitude (!x.negative) x.magnitude

/-- The magnitude nearest to `coefficient * 10 ^ exponent`. Decimals far outside the range of the
finite doubles are answered from their size alone, so that no power of ten is taken for nothing. -/
def nearestDecimal (coefficient : Nat) (exponent : Int) : Nat :=
  if coefficient = 0 then 0
  else if 400 < exponent then infinityMagnitude
  else if exponent + Nat.log2 coefficient < -400 then 0
  else (Ratio.scaled coefficient 10 exponent).nearest

/-- The double nearest to a signed decimal. -/
def ofDecimal (negative : Bool) (coefficient : Nat) (exponent : Int) : Binary64 :=
  ofMagnitude negative (nearestDecimal coefficient exponent)

end Binary64

end DocTable

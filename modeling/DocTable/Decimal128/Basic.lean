import DocTable.Bytes

/-!
# 128-bit decimals

A decimal is kept as its 128 bits. Its *datum* is what the bits mean: not a number, an infinity, or
a sign with a coefficient and a power of ten. Several bit patterns may share a datum, and a
coefficient field beyond thirty-four digits means zero, so arithmetic and text work on the datum
and equality on the bits.
-/

set_option autoImplicit false

namespace DocTable

/-- A decimal number of 128 bits, with a binary integer coefficient. -/
structure Decimal128 where
  bits : BitVec 128
  deriving DecidableEq, Repr

namespace Decimal128

/-- What the bits of a decimal mean. -/
inductive Datum where
  | notANumber (negative signaling : Bool)
  | infinite (negative : Bool)
  | finite (negative : Bool) (coefficient : Nat) (exponent : Int)
  deriving DecidableEq, Repr

/-- The number of digits of a coefficient. -/
def maxDigits : Nat := 34

/-- The least exponent. -/
def leastExponent : Int := -6176

/-- The greatest exponent. -/
def greatestExponent : Int := 6111

/-- The decimal whose little-endian bytes are the given ones. -/
def ofBytes (bytes : Bytes) : Decimal128 :=
  ⟨BitVec.ofNat 128 (ofLittle bytes)⟩

/-- The sixteen bytes of a decimal, least significant first. -/
def bytes (d : Decimal128) : Bytes :=
  little 16 d.bits.toNat

/-- The meaning of a decimal. After the sign, two set bits announce an infinity, a not-a-number or a
coefficient too large to be a decimal one; else fourteen bits of exponent and the coefficient
follow. -/
def datum (d : Decimal128) : Datum :=
  let n := d.bits.toNat
  let negative : Bool := 1 <<< 127 ≤ n
  let combination := (n >>> 122) % 32
  if combination = 31 then .notANumber negative ((n >>> 121) % 2 = 1)
  else if combination = 30 then .infinite negative
  else if 24 ≤ combination then
    .finite negative 0 (((n >>> 111) % (1 <<< 14) : Nat) + leastExponent)
  else
    let coefficient := n % (1 <<< 113)
    .finite negative (if coefficient < Nat.pow 10 maxDigits then coefficient else 0)
      (((n >>> 113) % (1 <<< 14) : Nat) + leastExponent)

/-- The bits of a datum whose coefficient and exponent are in range. -/
def ofDatum : Datum → Decimal128
  | .notANumber negative signaling =>
    ⟨BitVec.ofNat 128 (sign negative + (31 <<< 122) + if signaling then 1 <<< 121 else 0)⟩
  | .infinite negative => ⟨BitVec.ofNat 128 (sign negative + (30 <<< 122))⟩
  | .finite negative coefficient exponent =>
    ⟨BitVec.ofNat 128
      (sign negative + ((exponent - leastExponent).toNat <<< 113) + coefficient)⟩
where
  /-- The bit of a sign. -/
  sign (negative : Bool) : Nat := if negative then 1 <<< 127 else 0

end Decimal128

end DocTable

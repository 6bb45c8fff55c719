/-!
# Bytes and little-endian fields

A byte string is a list of bytes. A field of `width` bytes holds a number with its least
significant byte first; writing reduces the number modulo `256 ^ width`, so a number that does not
fit is written as its low bytes.
-/

set_option autoImplicit false

namespace DocTable

/-- A string of bytes. -/
abbrev Bytes := List UInt8

/-- The `width` low bytes of `n`, least significant first. -/
def little : (width n : Nat) → Bytes
  | 0, _ => []
  | width + 1, n => UInt8.ofNat n :: little width (n / 256)

/-- The number whose little-endian digits in base 256 are the given bytes. -/
def ofLittle : Bytes → Nat
  | [] => 0
  | b :: bs => b.toNat + 256 * ofLittle bs

@[simp] theorem length_little (width n : Nat) : (little width n).length = width := by
  induction width generalizing n with
  | zero => rfl
  | succ width ih => simp [little, ih]

/-- The first `width` bytes as a number, when there are that many. -/
def littleAt? (width : Nat) (bytes : Bytes) : Option Nat :=
  let field := bytes.take width
  if field.length = width then some (ofLittle field) else none

end DocTable

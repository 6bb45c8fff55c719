import DocTable.Bytes

/-!
# Base64

Bytes as text over the alphabet `A-Z a-z 0-9 + /`, three bytes to four characters, the last group
padded with `=`. Reading is strict: the length is a multiple of four, padding stands only at the
end, and the bits of the last character that carry no data are zero.
-/

set_option autoImplicit false

namespace DocTable.Base64

/-- The character of a six-bit number. -/
def sextetChar (n : Nat) : Char :=
  if n < 26 then Char.ofNat (65 + n)
  else if n < 52 then Char.ofNat (71 + n)
  else if n < 62 then Char.ofNat (n - 4)
  else if n = 62 then '+' else '/'

/-- The six-bit number of a character. -/
def sextet? (c : Char) : Option Nat :=
  if 'A' ≤ c ∧ c ≤ 'Z' then some (c.toNat - 65)
  else if 'a' ≤ c ∧ c ≤ 'z' then some (c.toNat - 71)
  else if '0' ≤ c ∧ c ≤ '9' then some (c.toNat + 4)
  else if c = '+' then some 62
  else if c = '/' then some 63
  else none

/-- The characters of some bytes. -/
def encode : Bytes → List Char
  | [] => []
  | [a] =>
    [sextetChar (a.toNat / 4), sextetChar (a.toNat % 4 * 16), '=', '=']
  | [a, b] =>
    [sextetChar (a.toNat / 4), sextetChar (a.toNat % 4 * 16 + b.toNat / 16),
      sextetChar (b.toNat % 16 * 4), '=']
  | a :: b :: c :: bytes =>
    sextetChar (a.toNat / 4) :: sextetChar (a.toNat % 4 * 16 + b.toNat / 16) ::
      sextetChar (b.toNat % 16 * 4 + c.toNat / 64) :: sextetChar (c.toNat % 64) :: encode bytes

/-- The bytes of a last group that ends in padding. -/
def decodePadded? (w x y : Char) : Option Bytes := do
  let w ← sextet? w
  let x ← sextet? x
  if y = '=' then
    if x % 16 = 0 then some [UInt8.ofNat (w * 4 + x / 16)] else none
  else
    let y ← sextet? y
    if y % 4 = 0 then
      some [UInt8.ofNat (w * 4 + x / 16), UInt8.ofNat (x % 16 * 16 + y / 4)]
    else none

/-- The bytes that a text denotes. -/
def decode? : List Char → Option Bytes
  | [] => some []
  | w :: x :: y :: z :: text =>
    if z = '=' then
      if text = [] then decodePadded? w x y else none
    else do
      let w ← sextet? w
      let x ← sextet? x
      let y ← sextet? y
      let z ← sextet? z
      let bytes ← decode? text
      some (UInt8.ofNat (w * 4 + x / 16) :: UInt8.ofNat (x % 16 * 16 + y / 4) ::
        UInt8.ofNat (y % 4 * 64 + z) :: bytes)
  | _ => none

end DocTable.Base64

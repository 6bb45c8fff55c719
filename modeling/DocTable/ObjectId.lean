import DocTable.Text.Hex
import DocTable.Text.Utf8

/-!
# Object identifiers

Twelve bytes, written as twenty-four hexadecimal digits.
-/

set_option autoImplicit false

namespace DocTable

/-- An identifier of twelve bytes. -/
structure ObjectId where
  bytes : Bytes
  length_bytes : bytes.length = 12
  deriving DecidableEq, Repr

namespace ObjectId

/-- The hexadecimal digits of an identifier. -/
def text (id : ObjectId) : String :=
  Hex.text id.bytes

/-- The identifier of the low twelve bytes of a number. -/
def ofNat (n : Nat) : ObjectId :=
  ⟨little 12 n, length_little 12 n⟩

/-- The identifier of the given bytes, if there are twelve. -/
def ofBytes? (bytes : Bytes) : Option ObjectId :=
  if h : bytes.length = 12 then some ⟨bytes, h⟩ else none

/-- Why a text is not an identifier; a bad digit is told by its byte and its place. -/
inductive Fault where
  | oddLength
  | wrongLength
  | badDigit (byte : UInt8) (place : Nat)
  deriving DecidableEq, Repr

/-- The value of a byte that is a hexadecimal digit. -/
def digit? (byte : UInt8) : Option Nat :=
  digitIn? 16 (Char.ofNat byte.toNat)

/-- Reads pairs of digits, the first of which stands at `place`. -/
def readPairs : (place : Nat) → Bytes → Except Fault Bytes
  | place, a :: b :: digits => do
    let high ← digitAt place a
    let low ← digitAt (place + 1) b
    let bytes ← readPairs (place + 2) digits
    .ok (UInt8.ofNat (high * 16 + low) :: bytes)
  | _, _ => .ok []
where
  /-- The digit at a place. -/
  digitAt (place : Nat) (byte : UInt8) : Except Fault Nat :=
    match digit? byte with
    | some value => .ok value
    | none => .error (.badDigit byte place)

/-- The identifier that a text denotes. Its length is checked before its digits. -/
def read (text : String) : Except Fault ObjectId :=
  let digits := Utf8.bytes text
  if digits.length % 2 = 1 then .error .oddLength
  else if digits.length ≠ 24 then .error .wrongLength
  else do
    let bytes ← readPairs 0 digits
    match ofBytes? bytes with
    | some id => .ok id
    | none => .error .wrongLength

end ObjectId

end DocTable

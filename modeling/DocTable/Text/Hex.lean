import DocTable.Bytes
import DocTable.Text.Integer

/-!
# Hexadecimal bytes

A byte is written as two lower-case digits, the higher half first.
-/

set_option autoImplicit false

namespace DocTable.Hex

/-- The two digits of a byte. -/
def byteDigits (b : UInt8) : List Char :=
  [digitChar (b.toNat / 16), digitChar (b.toNat % 16)]

/-- A byte as two digits. -/
def byteText (b : UInt8) : String :=
  String.ofList (byteDigits b)

/-- Two digits a byte. -/
def text (bytes : Bytes) : String :=
  String.ofList (bytes.flatMap byteDigits)

end DocTable.Hex

import DocTable.Bytes

/-!
# UTF-8

The bytes of a text, and the strict reading of bytes as text. A character is read when the bytes
in front of the cursor are its encoding and nothing else, so overlong forms, surrogates and numbers
beyond the last code point are refused; a refusal names the offset at which the first character
that cannot be read starts.
-/

set_option autoImplicit false

namespace DocTable.Utf8

/-- The bytes of a text. -/
def encode (text : List Char) : Bytes :=
  text.flatMap String.utf8EncodeChar

/-- The character with the given code point, when the given bytes are its encoding. -/
def charOf? (code : Nat) (bytes : Bytes) : Option Char :=
  let c := Char.ofNat code
  if String.utf8EncodeChar c = bytes then some c else none

/-- The character of one byte. -/
def char1? (a : UInt8) : Option Char :=
  charOf? a.toNat [a]

/-- The character of two bytes. -/
def char2? (a b : UInt8) : Option Char :=
  charOf? (a.toNat % 32 * 64 + b.toNat % 64) [a, b]

/-- The character of three bytes. -/
def char3? (a b c : UInt8) : Option Char :=
  charOf? ((a.toNat % 16 * 64 + b.toNat % 64) * 64 + c.toNat % 64) [a, b, c]

/-- The character of four bytes. -/
def char4? (a b c d : UInt8) : Option Char :=
  charOf? (((a.toNat % 8 * 64 + b.toNat % 64) * 64 + c.toNat % 64) * 64 + d.toNat % 64) [a, b, c, d]

/-- The text of bytes that start at `offset`, or the offset of the first malformed character. -/
def decodeFrom (offset : Nat) : Bytes → Except Nat (List Char)
  | [] => .ok []
  | a :: bytes =>
    match char1? a, bytes with
    | some x, bytes => (x :: ·) <$> decodeFrom (offset + 1) bytes
    | none, [] => .error offset
    | none, b :: bytes =>
      match char2? a b, bytes with
      | some x, bytes => (x :: ·) <$> decodeFrom (offset + 2) bytes
      | none, [] => .error offset
      | none, c :: bytes =>
        match char3? a b c, bytes with
        | some x, bytes => (x :: ·) <$> decodeFrom (offset + 3) bytes
        | none, [] => .error offset
        | none, d :: bytes =>
          match char4? a b c d with
          | some x => (x :: ·) <$> decodeFrom (offset + 4) bytes
          | none => .error offset

/-- The text of the bytes, or the length of the longest run of whole characters in front. -/
def decode (bytes : Bytes) : Except Nat String :=
  String.ofList <$> decodeFrom 0 bytes

/-- The bytes of a string. -/
def bytes (text : String) : Bytes :=
  encode text.toList

end DocTable.Utf8

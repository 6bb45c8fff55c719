import DocTable.Error

/-!
# The elements of a document on the wire

A document is a length of four bytes, which counts itself, then elements, then a NUL byte. An
element is a byte that tells the kind of its value, a name that ends in NUL, and the bytes of the
value. Elements are told apart without looking inside their values: the size of a value follows
from its kind and, for the kinds whose size varies, from a length in front of it.

A reader of elements stands at an offset of a buffer and sees all of the buffer from there on. The
`room` is the number of bytes before the NUL that ends the document; lengths are read regardless of
it and checked against it afterwards.
-/

set_option autoImplicit false

namespace DocTable

/-- The byte that stands for a kind. -/
def Kind.tag : Kind → UInt8
  | double => 0x01
  | string => 0x02
  | document => 0x03
  | array => 0x04
  | binary => 0x05
  | objectId => 0x07
  | bool => 0x08
  | dateTime => 0x09
  | null => 0x0a
  | code => 0x0d
  | symbol => 0x0e
  | int32 => 0x10
  | timestamp => 0x11
  | int64 => 0x12
  | decimal => 0x13

/-- The kinds, in the order of their declaration. -/
def Kind.all : List Kind :=
  [null, bool, int32, int64, double, decimal, string, code, symbol, objectId, binary, dateTime,
    timestamp, array, document]

/-- The kind that a byte stands for. -/
def Kind.ofTag? (tag : UInt8) : Option Kind :=
  Kind.all.find? (·.tag == tag)

namespace Wire

/-- The length of a document without fields: the length itself and the NUL at the end. -/
def minDocumentLength : Nat := 5

/-- A signed number of four bytes. -/
def int32At (offset : Nat) (bytes : Bytes) : Except Error Int :=
  match littleAt? 4 bytes with
  | some n => .ok (if n < 0x80000000 then n else n - 0x100000000)
  | none => .error (.malformed (some offset) (.truncated 4))

/-- The length of the document that starts here. -/
def documentLengthAt (offset : Nat) (bytes : Bytes) : Except Error Nat := do
  let length ← int32At offset bytes
  if length < minDocumentLength then .error (.malformed (some offset) (.documentLength length))
  else .ok length.toNat

/-- An element: its value is the first `size` bytes from `offset` on. -/
structure Element where
  kind : Kind
  name : String
  offset : Nat
  size : Nat
  /-- All of the buffer from the value on. -/
  bytes : Bytes

/-- The bytes of the value. -/
def Element.payload (e : Element) : Bytes :=
  e.bytes.take e.size

/-- The number of bytes of the value that starts here. -/
def valueSize (kind : Kind) (offset : Nat) (bytes : Bytes) : Except Error Nat :=
  match kind with
  | .null => .ok 0
  | .bool => .ok 1
  | .int32 => .ok 4
  | .double | .dateTime | .timestamp | .int64 => .ok 8
  | .objectId => .ok 12
  | .decimal => .ok 16
  | .string | .code | .symbol => do
    let length ← int32At offset bytes
    if length < 1 then .error (.malformed (some offset) (.stringLength length))
    else .ok (4 + length.toNat)
  | .document | .array => documentLengthAt offset bytes
  | .binary => do
    let length ← int32At offset bytes
    if length < 0 then .error (.malformed (some offset) (.binaryLength length))
    else .ok (5 + length.toNat)

/-- The name that starts here. -/
def nameAt (offset room : Nat) (bytes : Bytes) : Except Error (String × Nat) :=
  let name := bytes.takeWhile (· != 0)
  if name.length < room then
    match Utf8.decode name with
    | .ok text => .ok (text, name.length + 1)
    | .error valid => .error (.malformed (some (offset + valid)) .nameNotText)
  else .error (.malformed (some offset) .nameUnterminated)

/-- The element whose kind is told by the byte `tag`, and whose name starts here. -/
def elementAt (tag : UInt8) (offset room : Nat) (bytes : Bytes) : Except Error Element := do
  let (name, skipped) ← nameAt offset room bytes
  match Kind.ofTag? tag with
  | none => .error (.unsupportedType tag name)
  | some kind =>
    let value := bytes.drop skipped
    let size ← valueSize kind (offset + skipped) value
    if room < skipped + size then
      .error (.malformed (some (offset + skipped)) (.overrun name))
    else .ok ⟨kind, name, offset + skipped, size, value⟩

/-- The elements from here up to the end of the document. An element takes room, so `fuel` need not
exceed the room at the start. -/
def elementsFrom : (fuel : Nat) → (offset room : Nat) → Bytes → Except Error (List Element)
  | 0, _, _, _ => .ok []
  | _ + 1, _, 0, _ => .ok []
  | _ + 1, _, _ + 1, [] => .ok []
  | fuel + 1, offset, room + 1, tag :: bytes => do
    let element ← elementAt tag (offset + 1) room bytes
    let stop := element.offset + element.size
    let rest ← elementsFrom fuel stop (offset + 1 + room - stop) (element.bytes.drop element.size)
    .ok (element :: rest)

/-- The elements of the document that starts here. -/
def elementsAt (offset : Nat) (bytes : Bytes) : Except Error (List Element) := do
  let length ← documentLengthAt offset bytes
  match bytes[length - 1]? with
  | none => .error (.malformed (some offset) (.beyondBuffer length bytes.length))
  | some last =>
    if last ≠ 0 then .error (.malformed (some (offset + length - 1)) .documentUnterminated)
    else
      let room := length - minDocumentLength
      elementsFrom room (offset + 4) room (bytes.drop 4)

end Wire

end DocTable

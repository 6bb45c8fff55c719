import DocTable.Wire.Element

/-!
# Documents on the wire

Reading and writing documents. Of a document or an array, all elements are told apart before any
value is looked at, so a fault in the layout is found before a fault in a value; arrays are laid out
like documents, and the names of their elements carry no meaning. Containers nest to `maxDepth`
levels in both directions.
-/

set_option autoImplicit false

namespace DocTable

namespace Wire

/-- The subtype of an old binary, whose content starts with its length once more. -/
def oldBinary : UInt8 := 0x02

/-- The text of a string value that starts at `offset`. -/
def stringValue (offset : Nat) (payload : Bytes) : Except Error String :=
  let body := payload.drop 4
  let text := body.dropLast
  if body.getLast? ≠ some 0 then
    .error (.malformed (some (offset + payload.length - 1)) .stringUnterminated)
  else
    match Utf8.decode text with
    | .ok text => .ok text
    | .error valid => .error (.malformed (some (offset + 4 + valid)) .stringNotText)

/-- The content of a binary value that starts at `offset`. An old binary repeats its length. -/
def binaryValue (offset : Nat) (payload : Bytes) : Except Error Scalar :=
  match payload.drop 4 with
  | [] => .error (.malformed (some offset) (.truncated 1))
  | subtype :: content =>
    if subtype = oldBinary then do
      let inner ← int32At (offset + 5) content
      if inner < 0 ∨ inner + 4 ≠ content.length then
        .error (.malformed (some (offset + 5)) (.innerLength inner))
      else .ok (.binary subtype (content.drop 4))
    else .ok (.binary subtype content)

/-- The truth value of a byte at `offset`. -/
def boolValue (offset : Nat) : Bytes → Except Error Scalar
  | [0] => .ok (.bool false)
  | [1] => .ok (.bool true)
  | byte :: _ => .error (.malformed (some offset) (.booleanByte byte))
  | [] => .error (.malformed (some offset) (.truncated 1))

/-- The number whose bytes are given. -/
def Element.number (e : Element) : Nat :=
  ofLittle e.payload

/-- The value of an element, given the reader of the fields of a container. -/
def Element.value (fieldsAt : Nat → Bytes → Except Error Document) (e : Element) :
    Except Error Value :=
  match e.kind with
  | .null => .ok .null
  | .bool => .scalar <$> boolValue e.offset e.payload
  | .int32 => .ok (.scalar (.int32 (Int32.ofNat e.number)))
  | .int64 => .ok (.scalar (.int64 (Int64.ofNat e.number)))
  | .double => .ok (.scalar (.double ⟨UInt64.ofNat e.number⟩))
  | .decimal => .ok (.scalar (.decimal (Decimal128.ofBytes e.payload)))
  | .string => (.scalar ∘ .string) <$> stringValue e.offset e.payload
  | .code => (.scalar ∘ .code) <$> stringValue e.offset e.payload
  | .symbol => (.scalar ∘ .symbol) <$> stringValue e.offset e.payload
  | .objectId => .ok (.scalar (.objectId (ObjectId.ofNat e.number)))
  | .binary => .scalar <$> binaryValue e.offset e.payload
  | .dateTime => .ok (.scalar (.dateTime (Int64.ofNat e.number)))
  | .timestamp =>
    .ok (.scalar (.timestamp (UInt32.ofNat (e.number / 0x100000000)) (UInt32.ofNat e.number)))
  | .array => do
    let fields ← fieldsAt e.offset e.bytes
    .ok (.array (fields.map (·.2)))
  | .document => .document <$> fieldsAt e.offset e.bytes

/-- The field that an element is. -/
def Element.field (fieldsAt : Nat → Bytes → Except Error Document) (e : Element) :
    Except Error (String × Value) := do
  let value ← e.value fieldsAt
  .ok (e.name, value)

/-- The fields of the container that starts here, with containers nested in it to `levels`. -/
def fieldsAt : (levels : Nat) → (offset : Nat) → Bytes → Except Error Document
  | 0, offset, bytes => do
    let elements ← elementsAt offset bytes
    elements.mapM (Element.field fun offset _ => .error (.malformed (some offset) .tooDeep))
  | levels + 1, offset, bytes => do
    let elements ← elementsAt offset bytes
    elements.mapM (Element.field (fieldsAt levels))

/-- The bytes of a string value. -/
def stringBytes (text : String) : Bytes :=
  let bytes := Utf8.bytes text
  little 4 (bytes.length + 1) ++ bytes ++ [0]

/-- The bytes of a binary value. -/
def binaryBytes (subtype : UInt8) (content : Bytes) : Bytes :=
  if subtype = oldBinary then
    little 4 (content.length + 4) ++ subtype :: (little 4 content.length ++ content)
  else little 4 content.length ++ subtype :: content

/-- The bytes of a scalar value. -/
def scalarBytes : Scalar → Bytes
  | .null => []
  | .bool b => [if b then 1 else 0]
  | .int32 n => little 4 n.toUInt32.toNat
  | .int64 n => little 8 n.toUInt64.toNat
  | .double x => little 8 x.bits.toNat
  | .decimal d => d.bytes
  | .string s => stringBytes s
  | .code s => stringBytes s
  | .symbol s => stringBytes s
  | .objectId id => id.bytes
  | .binary subtype content => binaryBytes subtype content
  | .dateTime millis => little 8 millis.toUInt64.toNat
  | .timestamp seconds increment => little 8 (seconds.toNat * 0x100000000 + increment.toNat)

/-- The bytes of a container with the given elements. -/
def containerBytes (elements : Bytes) : Bytes :=
  little 4 (elements.length + minDocumentLength) ++ elements ++ [0]

/-- The bytes in front of a value: its kind and its name. -/
def headerBytes (kind : Kind) (name : String) : Bytes :=
  kind.tag :: (Utf8.bytes name ++ [0])

/-- Whether a name can stand on the wire, where a NUL byte would end it. -/
def nameFits (name : String) : Bool :=
  !(Utf8.bytes name).contains 0

mutual

/-- The bytes of a value inside a container at depth `depth`. -/
def valueBytes (depth : Nat) : Value → Except Error Bytes
  | .scalar s => .ok (scalarBytes s)
  | .array items => do
    if maxDepth ≤ depth then .error (.malformed none .tooDeep)
    else
      let elements ← itemsBytes (depth + 1) 0 items
      .ok (containerBytes elements)
  | .document fields => do
    if maxDepth ≤ depth then .error (.malformed none .tooDeep)
    else
      let elements ← fieldsBytes (depth + 1) fields
      .ok (containerBytes elements)

/-- The elements of an array from the one at `index` on, each named by its index. -/
def itemsBytes (depth index : Nat) : List Value → Except Error Bytes
  | [] => .ok []
  | v :: items => do
    let bytes ← valueBytes depth v
    let rest ← itemsBytes depth (index + 1) items
    .ok (headerBytes v.kind (natText index) ++ bytes ++ rest)

/-- The elements of a document. -/
def fieldsBytes (depth : Nat) : List (String × Value) → Except Error Bytes
  | [] => .ok []
  | (name, v) :: fields => do
    if nameFits name then
      let bytes ← valueBytes depth v
      let rest ← fieldsBytes depth fields
      .ok (headerBytes v.kind name ++ bytes ++ rest)
    else .error (.malformed none (.nameWithNul name))

end

end Wire

namespace Document

/-- The document that a buffer holds and fills. -/
def decode (bytes : Bytes) : Except Error Document := do
  let length ← Wire.documentLengthAt 0 bytes
  if length ≠ bytes.length then
    .error (.malformed (some 0) (.lengthMismatch length bytes.length))
  else Wire.fieldsAt (maxDepth - 1) 0 bytes

/-- The number of fields of the document at the front of a buffer. -/
def countFields (bytes : Bytes) : Except Error Nat :=
  List.length <$> Wire.elementsAt 0 bytes

/-- The bytes of a document. -/
def encode (doc : Document) : Except Error Bytes :=
  Wire.valueBytes 0 (.document doc)

end Document

end DocTable

import DocTable.ExtendedJson.Wrapper
import DocTable.Instant
import DocTable.Text.Base64

/-!
# Values as extended JSON

`Value.ofJson` reads a JSON value, wrapper objects included; containers nest as deep as on the wire,
and a wrapper counts for no level. `Value.toJson` writes the relaxed form: numbers plainly where
JSON can hold them, dates from 1970 to 9999 as text, and wrappers for the rest.
-/

set_option autoImplicit false

namespace DocTable

namespace Value

/-- A number as a scalar: the narrowest integer kind that holds it, else a double. -/
def ofNumber : Json.Number → Scalar
  | .integer n _ =>
    if -0x80000000 ≤ n ∧ n < 0x80000000 then .int32 (Int32.ofInt n)
    else if n < 0x8000000000000000 then .int64 (Int64.ofInt n)
    else .double (Binary64.ofInt n)
  | .real x _ => .double x

mutual

/-- The value of a JSON value that stands below `depth` containers. -/
def ofJsonAt (depth : Nat) : Json → Except Error Value
  | .null => .ok .null
  | .bool b => .ok (.scalar (.bool b))
  | .number n => .ok (.scalar (ofNumber n))
  | .string s => .ok (.scalar (.string s))
  | .array items =>
    if maxDepth ≤ depth then .error (.malformed none .tooDeep)
    else .array <$> itemsOfJsonAt (depth + 1) items
  | .object members => do
    match ← Wrapper.read members with
    | some s => .ok (.scalar s)
    | none =>
      if maxDepth ≤ depth then .error (.malformed none .tooDeep)
      else .document <$> fieldsOfJsonAt (depth + 1) members

/-- The items of an array whose items stand below `depth` containers. -/
def itemsOfJsonAt (depth : Nat) : List Json → Except Error (List Value)
  | [] => .ok []
  | j :: items => do
    let v ← ofJsonAt depth j
    let vs ← itemsOfJsonAt depth items
    .ok (v :: vs)

/-- The fields of a document whose values stand below `depth` containers. -/
def fieldsOfJsonAt (depth : Nat) : List (String × Json) → Except Error (List (String × Value))
  | [] => .ok []
  | (name, j) :: members => do
    let v ← ofJsonAt depth j
    let fields ← fieldsOfJsonAt depth members
    .ok ((name, v) :: fields)

end

/-- The value of a JSON value. -/
def ofJson (j : Json) : Except Error Value :=
  ofJsonAt 0 j

end Value

/-- Whether an instant is written as text: its year is from 1970 to 9999. -/
def Instant.hasPlainDate (millis : Int) : Bool :=
  0 ≤ millis && millis < 253402300800000

/-- A scalar as JSON. -/
def Scalar.toJson : Scalar → Json
  | .null => .null
  | .bool b => .bool b
  | .int32 n => .ofInt32 n
  | .int64 n => .ofInt64 n
  | .double x =>
    match Json.real? x with
    | some j => j
    | none => .single "$numberDouble" (.string x.cellText)
  | .decimal d => .single "$numberDecimal" (.string d.text)
  | .string s => .string s
  | .code s => .single "$code" (.string s)
  | .symbol s => .single "$symbol" (.string s)
  | .objectId id => .single "$oid" (.string id.text)
  | .binary subtype bytes =>
    .single "$binary" (.object
      [("base64", .string (String.ofList (Base64.encode bytes))),
        ("subType", .string (Hex.byteText subtype))])
  | .dateTime millis =>
    .single "$date" (
      if Instant.hasPlainDate millis.toInt then .string (Instant.text millis.toInt)
      else .single "$numberLong" (.string (intText millis.toInt)))
  | .timestamp seconds increment =>
    .single "$timestamp" (.object [("t", .ofUInt32 seconds), ("i", .ofUInt32 increment)])

namespace Value

mutual

/-- A value as JSON. A document whose names repeat keeps the last value of each. -/
def toJson : Value → Json
  | .scalar s => s.toJson
  | .array items => .array (itemsToJson items)
  | .document fields => .objectOf (fieldsToJson fields)

/-- The items of an array as JSON. -/
def itemsToJson : List Value → List Json
  | [] => []
  | v :: items => toJson v :: itemsToJson items

/-- The fields of a document as JSON, repeated names included. -/
def fieldsToJson : List (String × Value) → Json.Members
  | [] => []
  | (name, v) :: fields => (name, toJson v) :: fieldsToJson fields

end

/-- A value as JSON without blanks. -/
def jsonText (v : Value) : String :=
  v.toJson.compact

end Value

namespace Document

/-- The document of a JSON value. The outermost object is never a wrapper. -/
def ofJson : Json → Except Error Document
  | .object members => Value.fieldsOfJsonAt 1 members
  | other => .error (.malformed none (.notAnObject other))

/-- The document that a text holds. -/
def parse (text : String) : Except Error Document := do
  match Json.read text with
  | .ok j => ofJson j
  | .error fault => .error (.json fault)

end Document

namespace Value

/-- The value that a text holds. -/
def parse (text : String) : Except Error Value := do
  match Json.read text with
  | .ok j => ofJson j
  | .error fault => .error (.json fault)

end Value

end DocTable

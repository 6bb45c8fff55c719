import DocTable.Binary64.Read
import DocTable.Error
import DocTable.Instant
import DocTable.Text.Base64

/-!
# Wrapper objects

A scalar that plain JSON has no form for is written as an object with one member, whose name tells
the kind and whose value holds the content. `Wrapper.read` recognizes such an object and checks its
content.
-/

set_option autoImplicit false

namespace DocTable.Wrapper

/-- The names that announce a scalar. -/
inductive Name where
  | objectId
  | date
  | numberInt
  | numberLong
  | numberDouble
  | numberDecimal
  | binary
  | timestamp
  | code
  | symbol
  deriving DecidableEq, Repr

/-- All names. -/
def Name.all : List Name :=
  [objectId, date, numberInt, numberLong, numberDouble, numberDecimal, binary, timestamp, code,
    symbol]

/-- The spelling of a name. -/
def Name.text : Name → String
  | objectId => "$oid"
  | date => "$date"
  | numberInt => "$numberInt"
  | numberLong => "$numberLong"
  | numberDouble => "$numberDouble"
  | numberDecimal => "$numberDecimal"
  | binary => "$binary"
  | timestamp => "$timestamp"
  | code => "$code"
  | symbol => "$symbol"

/-- The name with the given spelling. -/
def Name.ofText? (text : String) : Option Name :=
  Name.all.find? (·.text == text)

/-- A signed integer of some bits, written as a string. -/
def integer? (bits : Nat) (content : Json) : Option Int :=
  content.string?.bind (IntegerRange.signed bits).decimal?

/-- A double written as a string. -/
def double? (content : Json) : Option Binary64 :=
  content.string?.bind Binary64.read?

/-- The milliseconds of a date: a date and time, a number, or a number of 64 bits in its own
wrapper. -/
def millis? : Json → Option Int
  | .string s => Instant.read? s
  | .number (.integer n _) => if (IntegerRange.signed 64).greatest < n then none else some n
  | .object [(name, content)] =>
    if name = Name.numberLong.text then integer? 64 content else none
  | _ => none

/-- A binary: its bytes in base 64 and its subtype in hexadecimal. -/
def binary? (content : Json) : Option Scalar := do
  let digits ← (← content.get? "base64").string?
  let bytes ← Base64.decode? digits.toList
  let subtype ← (← content.get? "subType").string?
  let tag ← ((IntegerRange.unsigned 8).read 16 subtype.toList).toOption
  some (.binary (UInt8.ofNat tag.toNat) bytes)

/-- A member that is an unsigned number of 32 bits. -/
def word? (name : String) (content : Json) : Option UInt32 := do
  let n ← (← content.get? name).integer?
  if 0 ≤ n ∧ n < 0x100000000 then some (UInt32.ofNat n.toNat) else none

/-- A timestamp: its seconds and its increment. -/
def timestamp? (content : Json) : Option Scalar := do
  let seconds ← word? "t" content
  let increment ← word? "i" content
  some (.timestamp seconds increment)

/-- The scalar that a content denotes under a name; none when it is not of the announced form. A
string that is no identifier or no decimal has an error of its own. -/
def scalar? (name : Name) (content : Json) : Except Error (Option Scalar) :=
  match name with
  | .objectId =>
    match content.string? with
    | none => .ok none
    | some text =>
      match ObjectId.read text with
      | .ok id => .ok (some (.objectId id))
      | .error fault => .error (.malformed none (.objectId text fault))
  | .numberDecimal =>
    match content.string? with
    | none => .ok none
    | some text =>
      match Decimal128.read text with
      | .ok d => .ok (some (.decimal d))
      | .error fault => .error (.malformed none (.decimal text fault))
  | .date => .ok ((millis? content).map (.dateTime ∘ Int64.ofInt))
  | .numberInt => .ok ((integer? 32 content).map (.int32 ∘ Int32.ofInt))
  | .numberLong => .ok ((integer? 64 content).map (.int64 ∘ Int64.ofInt))
  | .numberDouble => .ok ((double? content).map .double)
  | .binary => .ok (binary? content)
  | .timestamp => .ok (timestamp? content)
  | .code => .ok (content.string?.map .code)
  | .symbol => .ok (content.string?.map .symbol)

/-- The scalar that the members of an object announce. An object is a wrapper if it has one member
and the name of that member announces a scalar; its content must then be of the announced form. -/
def read : Json.Members → Except Error (Option Scalar)
  | [(name, content)] =>
    match Name.ofText? name with
    | none => .ok none
    | some wrapper => do
      match ← scalar? wrapper content with
      | some s => .ok (some s)
      | none => .error (.malformed none (.wrapper name content))
  | _ => .ok none

end DocTable.Wrapper

import DocTable.Binary64.Basic

/-!
# JSON values

Numbers are told apart by how they are written: an integer keeps its value, anything with a
fraction or an exponent is a double. The members of an object keep the order of their first
occurrence, and a name that occurs again takes the later value in the earlier place.
-/

set_option autoImplicit false

namespace DocTable

namespace Json

/-- Whether an integer fits in sixty-four bits, signed or unsigned. -/
def IntegerInRange (n : Int) : Prop :=
  -0x8000000000000000 ≤ n ∧ n < 0x10000000000000000

instance (n : Int) : Decidable (IntegerInRange n) :=
  inferInstanceAs (Decidable (_ ∧ _))

/-- A number: an integer of sixty-four bits or a finite double. -/
inductive Number where
  | integer (n : Int) (inRange : IntegerInRange n)
  | real (x : Binary64) (finite : x.isFinite = true)
  deriving DecidableEq, Repr

end Json

/-- A JSON value. -/
inductive Json where
  | null
  | bool (b : Bool)
  | number (n : Json.Number)
  | string (s : String)
  | array (items : List Json)
  | object (members : List (String × Json))
  deriving Repr, Inhabited

/-- The members of an object. -/
abbrev Json.Members := List (String × Json)

namespace Json

/-- Puts a member in: in the place of the member of that name, else at the end. -/
def insert (name : String) (value : Json) : Members → Members
  | [] => [(name, value)]
  | (other, old) :: members =>
    if other = name then (other, value) :: members else (other, old) :: insert name value members

/-- The members of an object that is written as a list of names and values. -/
def members (list : Members) : Members :=
  list.foldl (fun done (name, value) => insert name value done) []

/-- The object that is written as a list of names and values. -/
def objectOf (list : Members) : Json :=
  .object (members list)

/-- The object with a single member. -/
def single (name : String) (value : Json) : Json :=
  .object [(name, value)]

/-- The value of a member of an object. -/
def get? (name : String) : Json → Option Json
  | .object members => (members.find? (·.1 == name)).map (·.2)
  | _ => none

/-- The text of a string. -/
def string? : Json → Option String
  | .string s => some s
  | _ => none

/-- The value of a number that is written as an integer. -/
def integer? : Json → Option Int
  | .number (.integer n _) => some n
  | _ => none

/-- An integer of sixty-four bits. -/
def ofInt (n : Int) (inRange : IntegerInRange n) : Json :=
  .number (.integer n inRange)

theorem inRange_of_int32 (n : Int32) : IntegerInRange n.toInt := by
  have := n.le_toInt
  have := n.toInt_lt
  constructor <;> omega

theorem inRange_of_int64 (n : Int64) : IntegerInRange n.toInt := by
  have := n.le_toInt
  have := n.toInt_lt
  constructor <;> omega

theorem inRange_of_uint32 (n : UInt32) : IntegerInRange n.toNat := by
  have := n.toNat_lt
  constructor <;> omega

/-- A signed number of 32 bits. -/
def ofInt32 (n : Int32) : Json := ofInt n.toInt (inRange_of_int32 n)

/-- A signed number of 64 bits. -/
def ofInt64 (n : Int64) : Json := ofInt n.toInt (inRange_of_int64 n)

/-- An unsigned number of 32 bits. -/
def ofUInt32 (n : UInt32) : Json := ofInt n.toNat (inRange_of_uint32 n)

/-- The double as a number, when it is finite. -/
def real? (x : Binary64) : Option Json :=
  if finite : x.isFinite then some (.number (.real x finite)) else none

/-- What a value is, for messages. -/
def noun : Json → String
  | .null => "null"
  | .bool _ => "a boolean"
  | .number _ => "a number"
  | .string _ => "a string"
  | .array _ => "an array"
  | .object _ => "an object"

end Json

end DocTable

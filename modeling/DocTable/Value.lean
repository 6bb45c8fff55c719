import DocTable.Binary64.Basic
import DocTable.Decimal128.Basic
import DocTable.ObjectId

/-!
# Documents and their values

A document is a list of named fields in the order in which they were written; a name may occur more
than once. A field holds a scalar, an array of values or a document. Scalars come in thirteen kinds
that the wire format tells apart.
-/

set_option autoImplicit false

namespace DocTable

/-- A value that holds no other value. -/
inductive Scalar where
  | null
  | bool (b : Bool)
  | int32 (n : Int32)
  | int64 (n : Int64)
  | double (x : Binary64)
  | decimal (d : Decimal128)
  | string (s : String)
  | code (s : String)
  | symbol (s : String)
  | objectId (id : ObjectId)
  | binary (subtype : UInt8) (bytes : Bytes)
  /-- Milliseconds since 1970. -/
  | dateTime (millis : Int64)
  | timestamp (seconds increment : UInt32)
  deriving DecidableEq, Repr

/-- A value of a document. -/
inductive Value where
  | scalar (s : Scalar)
  | array (items : List Value)
  | document (fields : List (String × Value))
  deriving Repr, Inhabited

/-- A list of named values. -/
abbrev Document := List (String × Value)

/-- The kind of a value, without its content. -/
inductive Kind where
  | null
  | bool
  | int32
  | int64
  | double
  | decimal
  | string
  | code
  | symbol
  | objectId
  | binary
  | dateTime
  | timestamp
  | array
  | document
  deriving DecidableEq, Repr

/-- The name under which a kind is reported. -/
def Kind.name : Kind → String
  | null => "null"
  | bool => "bool"
  | int32 => "int32"
  | int64 => "int64"
  | double => "double"
  | decimal => "decimal128"
  | string => "utf-8"
  | code => "code"
  | symbol => "symbol"
  | objectId => "oid"
  | binary => "binary"
  | dateTime => "date-time"
  | timestamp => "timestamp"
  | array => "array"
  | document => "document"

/-- The kind of a scalar. -/
def Scalar.kind : Scalar → Kind
  | null => .null
  | bool _ => .bool
  | int32 _ => .int32
  | int64 _ => .int64
  | double _ => .double
  | decimal _ => .decimal
  | string _ => .string
  | code _ => .code
  | symbol _ => .symbol
  | objectId _ => .objectId
  | binary _ _ => .binary
  | dateTime _ => .dateTime
  | timestamp _ _ => .timestamp

namespace Value

/-- The missing value. -/
abbrev null : Value := .scalar .null

/-- The kind of a value. -/
def kind : Value → Kind
  | scalar s => s.kind
  | array _ => .array
  | document _ => .document

mutual

/-- Equality of values is decided field by field. -/
def decEq : (v w : Value) → Decidable (v = w)
  | scalar s, scalar t =>
    match instDecidableEqScalar s t with
    | isTrue h => isTrue (h ▸ rfl)
    | isFalse h => isFalse fun e => h (scalar.inj e)
  | array xs, array ys =>
    match decEqItems xs ys with
    | isTrue h => isTrue (h ▸ rfl)
    | isFalse h => isFalse fun e => h (array.inj e)
  | document xs, document ys =>
    match decEqFields xs ys with
    | isTrue h => isTrue (h ▸ rfl)
    | isFalse h => isFalse fun e => h (document.inj e)
  | scalar _, array _ => isFalse nofun
  | scalar _, document _ => isFalse nofun
  | array _, scalar _ => isFalse nofun
  | array _, document _ => isFalse nofun
  | document _, scalar _ => isFalse nofun
  | document _, array _ => isFalse nofun

@[inherit_doc decEq]
def decEqItems : (xs ys : List Value) → Decidable (xs = ys)
  | [], [] => isTrue rfl
  | x :: xs, y :: ys =>
    match decEq x y, decEqItems xs ys with
    | isTrue h, isTrue k => isTrue (h ▸ k ▸ rfl)
    | isFalse h, _ => isFalse fun e => h (List.cons.inj e).1
    | _, isFalse k => isFalse fun e => k (List.cons.inj e).2
  | [], _ :: _ => isFalse nofun
  | _ :: _, [] => isFalse nofun

@[inherit_doc decEq]
def decEqFields : (xs ys : List (String × Value)) → Decidable (xs = ys)
  | [], [] => isTrue rfl
  | (k, x) :: xs, (l, y) :: ys =>
    if hk : k = l then
      match decEq x y, decEqFields xs ys with
      | isTrue h, isTrue t => isTrue (hk ▸ h ▸ t ▸ rfl)
      | isFalse h, _ => isFalse fun e => h (Prod.mk.inj (List.cons.inj e).1).2
      | _, isFalse t => isFalse fun e => t (List.cons.inj e).2
    else isFalse fun e => hk (Prod.mk.inj (List.cons.inj e).1).1
  | [], _ :: _ => isFalse nofun
  | _ :: _, [] => isFalse nofun

end

instance : DecidableEq Value := decEq

mutual

/-- The number of containers on the deepest path into a value, itself included. -/
def depth : Value → Nat
  | scalar _ => 0
  | array items => depthItems items + 1
  | document fields => depthFields fields + 1

/-- The greatest depth among the items of an array. -/
def depthItems : List Value → Nat
  | [] => 0
  | v :: vs => max (depth v) (depthItems vs)

/-- The greatest depth among the fields of a document. -/
def depthFields : List (String × Value) → Nat
  | [] => 0
  | (_, v) :: fields => max (depth v) (depthFields fields)

end

end Value

namespace Document

/-- The first value stored under a name. -/
def get? (doc : Document) (name : String) : Option Value :=
  (List.find? (·.1 == name) doc).map (·.2)

/-- The names of the fields in order. -/
def names (doc : Document) : List String :=
  List.map (·.1) doc

/-- The number of containers on the deepest path, the document itself included. -/
def depth (doc : Document) : Nat :=
  (Value.document doc).depth

end Document

/-- The deepest nesting of documents and arrays that is read or written, the outermost document
counted as one. -/
def maxDepth : Nat := 100

end DocTable

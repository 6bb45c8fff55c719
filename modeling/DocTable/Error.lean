import DocTable.ColumnType
import DocTable.Decimal128.Text
import DocTable.Json.Reader
import DocTable.Json.Writer
import DocTable.Text.Hex
import DocTable.Text.Quoted
import DocTable.Value

/-!
# Errors

Everything that can go wrong between the bytes of a document and the table that it ends up in, told
by its cause; `Error.message` is the wording.
-/

set_option autoImplicit false

namespace DocTable

/-- What is wrong with a malformed document. -/
inductive Fault where
  /-- A number that should be here is cut off by the end of the bytes. -/
  | truncated (wanted : Nat)
  | documentLength (length : Int)
  | lengthMismatch (declared actual : Nat)
  | beyondBuffer (declared available : Nat)
  | documentUnterminated
  | nameUnterminated
  | nameNotText
  | stringLength (length : Int)
  | binaryLength (length : Int)
  | overrun (field : String)
  | booleanByte (byte : UInt8)
  | stringUnterminated
  | stringNotText
  | innerLength (length : Int)
  | tooDeep
  | nameWithNul (name : String)
  /-- The stream ends inside the length in front of a document. -/
  | endInLength
  /-- The stream ends inside the remaining bytes of a document. -/
  | endInDocument (wanted : Nat)
  | beyondLimit (declared : Nat)
  | objectId (text : String) (fault : ObjectId.Fault)
  | decimal (text : String) (fault : Decimal128.Fault)
  /-- The content of a wrapper object is not what its name announces. -/
  | wrapper (name : String) (content : Json)
  | notAnObject (found : Json)
  /-- A fault of one line of a text. -/
  | atLine (line : Nat) (fault : Fault)
  /-- A fault in the words of whoever found it. -/
  | reported (text : String)
  deriving Repr

/-- A failure to read or to flatten documents. -/
inductive Error where
  /-- A malformed document, with the offset of the byte at fault where there is one. -/
  | malformed (offset : Option Nat) (fault : Fault)
  | unsupportedType (tag : UInt8) (field : String)
  /-- A value that its column cannot take, even widened. -/
  | heterogeneousColumn (column : String) (row : Nat) (type : ColumnType) (kind : Kind)
  | io (text : String)
  | json (fault : Json.Fault)
  /-- There was no document left to read. -/
  | exhausted
  | invalidPageSize
  deriving Repr

/-- The greatest length of a document that is read from a stream. -/
def maxDocumentLength : Nat := 16 * 1024 * 1024

/-- The wording of an identifier's fault. -/
def ObjectId.Fault.message : ObjectId.Fault → String
  | .oddLength => "Odd number of digits"
  | .wrongLength => "Invalid string length"
  | .badDigit byte place =>
    "Invalid character " ++ Quoted.char (Char.ofNat byte.toNat) ++ " at position " ++ natText place

/-- The wording of a fault. -/
def Fault.message : Fault → String
  | .truncated wanted => "truncated input: expected " ++ natText wanted ++ " bytes"
  | .documentLength length => "invalid document length " ++ intText length
  | .lengthMismatch declared actual =>
    "document length " ++ natText declared ++ " does not match buffer length " ++ natText actual
  | .beyondBuffer declared available =>
    "document length " ++ natText declared ++ " exceeds the " ++ natText available
      ++ " bytes available"
  | .documentUnterminated => "document is not NUL-terminated"
  | .nameUnterminated => "unterminated field name"
  | .nameNotText => "invalid UTF-8 in field name"
  | .stringLength length => "invalid string length " ++ intText length
  | .binaryLength length => "invalid binary length " ++ intText length
  | .overrun field => "value of field '" ++ field ++ "' overruns its document"
  | .booleanByte byte => "invalid boolean byte 0x" ++ Hex.byteText byte
  | .stringUnterminated => "string is not NUL-terminated"
  | .stringNotText => "invalid UTF-8 in string"
  | .innerLength length =>
    "invalid inner length " ++ intText length ++ " for old binary subtype"
  | .tooDeep => "document nested deeper than " ++ natText maxDepth ++ " levels"
  | .nameWithNul name => "field name " ++ Quoted.text name ++ " contains a NUL byte"
  | .endInLength => "stream ends inside a length prefix: expected 4 bytes"
  | .endInDocument wanted =>
    "stream ends inside a document: expected " ++ natText wanted ++ " bytes"
  | .beyondLimit declared =>
    "document length " ++ natText declared ++ " exceeds the " ++ natText maxDocumentLength
      ++ " byte limit"
  | .objectId text fault => "invalid ObjectId '" ++ text ++ "': " ++ fault.message
  | .decimal text fault =>
    "invalid decimal128 '" ++ text ++ "'" ++
      (match fault.reason? with
      | some reason => ": " ++ reason
      | none => "")
  | .wrapper name content => "invalid " ++ name ++ " value: " ++ content.compact
  | .notAnObject found => "expected a JSON object, found " ++ found.noun
  | .atLine line fault => "line " ++ natText line ++ ": " ++ fault.message
  | .reported text => text

namespace Error

/-- The wording of an error. The wording of a text that is not JSON says only how it fails. -/
def message : Error → String
  | malformed none fault => "malformed document: " ++ fault.message
  | malformed (some offset) fault =>
    "malformed document at byte " ++ natText offset ++ ": " ++ fault.message
  | unsupportedType tag field =>
    "unsupported BSON type 0x" ++ Hex.byteText tag ++ " in field '" ++ field ++ "'"
  | heterogeneousColumn column row type kind =>
    "heterogeneous column '" ++ column ++ "': found " ++ kind.name ++ " at row " ++ natText row
      ++ ", which cannot be stored in a column of type " ++ type.name
  | io text => "I/O error: " ++ text
  | json .ended => "invalid JSON: the text ends too early"
  | json .malformed => "invalid JSON: the text is malformed"
  | exhausted => "document source is exhausted"
  | invalidPageSize => "page size must be at least 1"

/-- The wording of an error and of what caused it, outermost first. -/
def chain : Error → List String
  | io text => [(io text).message, text]
  | error => [error.message]

/-- The error of a document that starts at offset `base` of a stream. -/
def rebased (base : Nat) : Error → Error
  | malformed (some offset) fault => malformed (some (offset + base)) fault
  | error => error

end Error

end DocTable

import DocTable.Wire.Document

/-!
# Streams of documents on the wire

Documents laid end to end. A stream is its remaining bytes together with how it ends, which is
either cleanly or with a failure that every further attempt to read meets again. After an error
other than the end of the stream nothing more is read.
-/

set_option autoImplicit false

namespace DocTable

/-- What a reader finds behind the last byte. -/
inductive Ending where
  | clean
  | failure (text : String)
  deriving DecidableEq, Repr

/-- The rest of a stream of documents. -/
structure WireStream where
  rest : Bytes
  ending : Ending
  /-- The number of bytes of the documents read so far. -/
  offset : Nat
  /-- The number of documents read so far. -/
  documents : Nat
  /-- Whether reading has failed. -/
  failed : Bool
  deriving DecidableEq, Repr

namespace WireStream

/-- A stream from its start. -/
def ofBytes (bytes : Bytes) (ending : Ending) : WireStream :=
  ⟨bytes, ending, 0, 0, false⟩

/-- The error of a stream that ends in the middle of a document. -/
def cutOff (stream : WireStream) (fault : Fault) : Error :=
  match stream.ending with
  | .clean => .malformed (some stream.offset) fault
  | .failure text => .io text

/-- The length of the document in front. -/
def documentLength (stream : WireStream) : Except Error Nat :=
  let field := stream.rest.take 4
  if field.length < 4 then .error (stream.cutOff .endInLength)
  else
    match Wire.documentLengthAt 0 field with
    | .error error => .error (error.rebased stream.offset)
    | .ok length =>
      if maxDocumentLength < length then
        .error (.malformed (some stream.offset) (.beyondLimit length))
      else .ok length

/-- The document in front and its length. -/
def document (stream : WireStream) : Except Error (Document × Nat) := do
  let length ← stream.documentLength
  let buffer := stream.rest.take length
  if buffer.length < length then
    .error (stream.cutOff (.endInDocument (length - 4)))
  else
    match Document.decode buffer with
    | .error error => .error (error.rebased stream.offset)
    | .ok doc => .ok (doc, length)

/-- Whether there is something to read, be it a document or an error. -/
def hasMore (stream : WireStream) : Bool :=
  !stream.failed && (stream.rest ≠ [] || stream.ending ≠ .clean)

/-- Takes the next document. -/
def next (stream : WireStream) : Except Error Document × WireStream :=
  if stream.failed then (.error .exhausted, stream)
  else
    match stream.rest, stream.ending with
    | [], .clean => (.error .exhausted, stream)
    | [], .failure text => (.error (.io text), { stream with failed := true })
    | _ :: _, _ =>
      match stream.document with
      | .error error => (.error error, { stream with failed := true })
      | .ok (doc, length) =>
        (.ok doc,
          { stream with
            rest := stream.rest.drop length
            offset := stream.offset + length
            documents := stream.documents + 1 })

end WireStream

end DocTable

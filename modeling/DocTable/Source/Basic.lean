import DocTable.Source.JsonLines

/-!
# Sources of documents

A source gives one document or error after another and then reports that it is exhausted. Asking
whether there is more never loses anything; it is answered with yes where the next read fails, so
that a failure is not taken for the end.
-/

set_option autoImplicit false

namespace DocTable

/-- Where documents come from. -/
inductive Source where
  /-- Documents at hand. -/
  | queue (docs : List Document)
  /-- Documents and errors at hand. -/
  | feed (items : List (Except Error Document))
  | wire (stream : WireStream)
  | jsonLines (lines : JsonLines)
  deriving Repr

namespace Source

/-- Whether there is something to read, be it a document or an error. -/
def hasMore : Source → Bool × Source
  | queue docs => (!docs.isEmpty, queue docs)
  | feed items => (!items.isEmpty, feed items)
  | wire stream => (stream.hasMore, wire stream)
  | jsonLines lines =>
    let (more, lines) := lines.hasMore
    (more, jsonLines lines)

/-- Takes the next document. -/
def next : Source → Except Error Document × Source
  | queue [] => (.error .exhausted, queue [])
  | queue (doc :: docs) => (.ok doc, queue docs)
  | feed [] => (.error .exhausted, feed [])
  | feed (item :: items) => (item, feed items)
  | wire stream =>
    let (result, stream) := stream.next
    (result, wire stream)
  | jsonLines lines =>
    let (result, lines) := lines.next
    (result, jsonLines lines)

/-- A bound on the number of documents that the source still gives. -/
def bound : Source → Nat
  | queue docs => docs.length
  | feed items => items.length
  | wire stream => stream.rest.length
  | jsonLines lines => lines.lines.length + 1

end Source

end DocTable

import DocTable.ExtendedJson.Basic
import DocTable.Source.WireStream
import DocTable.Text.Blank

/-!
# Lines of JSON

A text with one JSON object on every line that is not blank. Each line is read on its own, so an
error of one line does not touch the next. Lines that are not text are skipped over without being
counted; all other lines count, blank ones included.
-/

set_option autoImplicit false

namespace DocTable

namespace Lines

/-- A line without the carriage return before its end. -/
def trimReturn (line : Bytes) : Bytes :=
  if line.getLast? = some 13 then line.dropLast else line

/-- The lines that end in a line feed, and what stands behind the last of them. -/
def split : Bytes → List Bytes × Bytes
  | [] => ([], [])
  | b :: bytes =>
    match split bytes with
    | (lines, last) =>
      if b = 10 then ([] :: lines, last)
      else
        match lines with
        | [] => ([], b :: last)
        | line :: lines => ((b :: line) :: lines, last)

/-- The lines of a text. Bytes behind the last line feed are a line of their own if the text ends
cleanly; if reading fails there, they are never seen. -/
def ofBytes (bytes : Bytes) (ending : Ending) : List Bytes :=
  let (lines, last) := split bytes
  let whole := lines.map trimReturn
  if last = [] ∨ ending ≠ .clean then whole else whole ++ [last]

end Lines

/-- The rest of a text of lines. -/
structure JsonLines where
  lines : List Bytes
  ending : Ending
  /-- The number of lines read so far. -/
  lineNumber : Nat
  /-- What the next read will give, if it is known already. -/
  peeked : Option (Except Error Document)
  deriving Repr

namespace JsonLines

/-- A text from its start. -/
def ofBytes (bytes : Bytes) (ending : Ending) : JsonLines :=
  ⟨Lines.ofBytes bytes ending, ending, 0, none⟩

/-- The words for a line that is not text. -/
def notText : String := "stream did not contain valid UTF-8"

/-- An error as one of line `number`. -/
def atLine (number : Nat) : Error → Error
  | .malformed _ fault => .malformed none (.atLine number fault)
  | error => error

/-- The document of line `number`. -/
def documentOf (number : Nat) (line : String) : Except Error Document :=
  match Document.parse line with
  | .ok doc => .ok doc
  | .error error => .error (atLine number error)

/-- Reads up to the next line that holds something. What is left is returned as the remaining lines
and the number of lines read. -/
def readLines (ending : Ending) :
    (number : Nat) → List Bytes → Option (Except Error Document) × List Bytes × Nat
  | number, [] =>
    match ending with
    | .clean => (none, [], number)
    | .failure text => (some (.error (.io text)), [], number)
  | number, line :: lines =>
    match Utf8.decode line with
    | .error _ => (some (.error (.io notText)), lines, number)
    | .ok text =>
      if isBlankText text then readLines ending (number + 1) lines
      else (some (documentOf (number + 1) text), lines, number + 1)

/-- Reads up to the next line that holds something. -/
def readNext (source : JsonLines) : Option (Except Error Document) × JsonLines :=
  let (result, lines, lineNumber) := readLines source.ending source.lineNumber source.lines
  (result, { source with lines, lineNumber, peeked := none })

/-- Whether there is something to read, be it a document or an error. -/
def hasMore (source : JsonLines) : Bool × JsonLines :=
  match source.peeked with
  | some _ => (true, source)
  | none =>
    let (result, source) := source.readNext
    (result.isSome, { source with peeked := result })

/-- Takes the next document. -/
def next (source : JsonLines) : Except Error Document × JsonLines :=
  match source.peeked with
  | some result => (result, { source with peeked := none })
  | none =>
    let (result, source) := source.readNext
    (result.getD (.error .exhausted), source)

end JsonLines

end DocTable

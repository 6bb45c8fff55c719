/-!
# Formats

The formats of the output and of the input, their names, and the format that a path suggests.
-/

set_option autoImplicit false

namespace DocTable

/-- The format of the output. -/
inductive OutputFormat where
  | terminal
  | json
  | csv
  | parquet
  deriving DecidableEq, Repr

/-- The encoding of the input. -/
inductive InputFormat where
  /-- Told by the extension of the file. -/
  | auto
  | bson
  | jsonLines
  deriving DecidableEq, Repr

/-- A name that no format has. -/
inductive FormatFault where
  | unknownOutput (name : String)
  | unknownInput (name : String)
  deriving DecidableEq, Repr

/-- The wording of a fault. -/
def FormatFault.message : FormatFault → String
  | unknownOutput name => "Unknown output format: " ++ name
  | unknownInput name => "Unknown input format: " ++ name

/-- A text with its letters in lower case. The names that it is compared with are plain letters,
which are the lower case of no other letters than their own. -/
def lowerCase (text : String) : String :=
  String.ofList (text.toList.map Char.toLower)

/-- The output format of a name, in any case. -/
def OutputFormat.ofName (name : String) : Except FormatFault OutputFormat :=
  let lower := lowerCase name
  if lower = "terminal" then .ok .terminal
  else if lower = "json" then .ok .json
  else if lower = "csv" then .ok .csv
  else if lower = "parquet" then .ok .parquet
  else .error (.unknownOutput name)

/-- The input format of a name, in any case. -/
def InputFormat.ofName (name : String) : Except FormatFault InputFormat :=
  let lower := lowerCase name
  if lower = "auto" then .ok .auto
  else if lower = "bson" then .ok .bson
  else if lower = "jsonl" ∨ lower = "ndjson" then .ok .jsonLines
  else .error (.unknownInput name)

namespace FilePath

/-- What stands between slashes. -/
def segments : List Char → List (List Char)
  | [] => [[]]
  | c :: path =>
    if c = '/' then [] :: segments path
    else
      match segments path with
      | [] => [[c]]
      | segment :: rest => (c :: segment) :: rest

/-- The parts of a path between slashes; empty parts and single dots lead nowhere. -/
def parts (path : String) : List String :=
  ((segments path.toList).map String.ofList).filter fun part => part ≠ "" && part ≠ "."

/-- The name that a path ends in. -/
def fileName? (path : String) : Option String :=
  match (parts path).getLast? with
  | some name => if name = ".." then none else some name
  | none => none

/-- What stands behind the last dot of a path's name; a dot in front starts no extension. -/
def extension? (path : String) : Option String := do
  let name ← fileName? path
  let tail := name.toList.reverse.takeWhile (· != '.')
  let before := name.toList.length - tail.length - 1
  if tail.length < name.toList.length ∧ 0 < before then some (String.ofList tail.reverse) else none

end FilePath

/-- The encoding of a file, told by its extension unless it is known. -/
def InputFormat.resolve (format : InputFormat) (path : String) : InputFormat :=
  match format with
  | auto =>
    let extension := lowerCase ((FilePath.extension? path).getD "")
    if extension = "json" ∨ extension = "jsonl" ∨ extension = "ndjson" then .jsonLines else .bson
  | format => format

end DocTable

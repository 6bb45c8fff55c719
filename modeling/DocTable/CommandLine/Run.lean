import DocTable.CommandLine.Arguments
import DocTable.CommandLine.Files
import DocTable.Report.Basic
import DocTable.Source.Pages

/-!
# Running a command

All inputs are read before anything is written. The output file is made before the report is, so a
report that cannot be made leaves an empty file.
-/

set_option autoImplicit false

namespace DocTable

/-- What a command leaves behind. -/
structure Outcome where
  /-- The text on standard output. -/
  stdout : String
  /-- The message of a failed command. -/
  failure : Option String
  /-- The file that was made, and what was written to it. -/
  written : Option (String × Report)

namespace Outcome

/-- The text on standard error. -/
def stderr (outcome : Outcome) : Option String :=
  outcome.failure.map fun text => "Error: " ++ text ++ "\n"

/-- The exit code. -/
def code (outcome : Outcome) : Nat :=
  if outcome.failure.isSome then 2 else 0

/-- A failure that leaves no trace. -/
def failed (text : String) : Outcome := ⟨"", some text, none⟩

end Outcome

namespace Command

/-- The name and the version of the program. -/
def versionText : String := "bsonframe 0.1.0\n"

/-- The source of an opened file. -/
def source (format : InputFormat) (path : String) (bytes : Bytes) (ending : Ending) : Source :=
  match format.resolve path with
  | .jsonLines => .jsonLines (JsonLines.ofBytes bytes ending)
  | _ => .wire (WireStream.ofBytes bytes ending)

/-- The pages of an input. -/
def readPages (files : FileSystem) (settings : Settings) (path : String) :
    Except Error (List Table) :=
  match files.contents path with
  | .error fault => .error (.io fault.message)
  | .ok (bytes, ending) =>
    let options : Options := ⟨settings.bigintAsString, settings.dateAsString⟩
    let source := source (settings.inputFormat.getD .auto) path bytes ending
    (Pages.ofSource options (settings.pageSize.getD Settings.defaultPageSize) source).collect
      settings.maxPages

/-- The message of an input that cannot be read. -/
def inputFailure (path : String) (error : Error) : String :=
  ": ".intercalate (("Failed to flatten " ++ path) :: error.chain)

/-- The pages of all inputs under their paths, or the message of the first that cannot be read. -/
def readInputs (files : FileSystem) (settings : Settings) :
    List String → Except String (List Labelled)
  | [] => .ok []
  | path :: paths =>
    match readPages files settings path with
    | .error error => .error (inputFailure path error)
    | .ok tables => do
      let inputs ← readInputs files settings paths
      .ok ((path, tables) :: inputs)

/-- Whether a report on standard output is coloured. -/
def colored (onTerminal : Bool) : ColorChoice → Bool
  | .auto => onTerminal
  | .always => true
  | .never => false

/-- The report of the inputs that were read. -/
def report (onTerminal : Bool) (settings : Settings) (inputs : List Labelled) :
    Except ColumnFile.Fault Report :=
  if settings.statsOnly then .ok (.text (summaries inputs))
  else
    let color := settings.output.isNone && colored onTerminal (settings.color.getD .auto)
    (Style.ofFormat color (settings.format.getD .terminal)).inputs inputs

/-- Writes the report of the inputs to standard output or to the file asked for. -/
def write (onTerminal : Bool) (files : FileSystem) (settings : Settings) (inputs : List Labelled) :
    Outcome :=
  match settings.output with
  | none =>
    match report onTerminal settings inputs with
    | .ok (.text text) => ⟨text, none, none⟩
    | .ok (.columns _) => ⟨"", none, none⟩
    | .error fault => .failed fault.message
  | some path =>
    match files.create path with
    | .error fault =>
      .failed ("Failed to create output file: " ++ path ++ ": " ++ fault.message)
    | .ok () =>
      match report onTerminal settings inputs with
      | .ok report => ⟨"", none, some (path, report)⟩
      | .error fault => ⟨"", some fault.message, some (path, .text "")⟩

/-- Does what the settings ask for. A file of columns is not written to standard output. -/
def run (onTerminal : Bool) (files : FileSystem) (settings : Settings) : Outcome :=
  if settings.format = some .parquet ∧ settings.output = none ∧ settings.statsOnly = false then
    .failed "Parquet output needs a file: pass --output <PATH>"
  else
    match readInputs files settings settings.inputs with
    | .error text => .failed text
    | .ok inputs => write onTerminal files settings inputs

end Command

/-- What is at a path: the bytes that were there before a command, or the report that it wrote. -/
inductive Content where
  | stored (bytes : Bytes) (ending : Ending)
  | report (report : Report)
  deriving Repr

/-- What is at a path before a command, if a file can be opened there. -/
def FileSystem.contentBefore? (files : FileSystem) (path : String) : Option Content :=
  match files.contents path with
  | .ok (bytes, ending) => some (.stored bytes ending)
  | .error _ => none

/-- What is at a path after a command. -/
def Outcome.contentAt? (outcome : Outcome) (files : FileSystem) (path : String) : Option Content :=
  match outcome.written with
  | some (target, report) =>
    if files.sameFile path target then some (.report report) else files.contentBefore? path
  | none => files.contentBefore? path

end DocTable

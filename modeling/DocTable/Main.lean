import DocTable.CommandLine.Run

/-!
# The program

Reads the input files, runs the command and writes what it leaves behind. A file of columns is kept
on disk as JSON.
-/

set_option autoImplicit false

namespace DocTable.Main

/-- A failure of the system as a fault of a path. -/
def faultOf : IO.Error → FileFault
  | .noFileOrDirectory _ _ _ => .notFound
  | error => .other (toString error)

/-- The bytes behind a path. -/
def load (path : String) : IO (String × Except FileFault Bytes) := do
  match ← (IO.FS.readBinFile path).toBaseIO with
  | .ok bytes => pure (path, .ok bytes.toList)
  | .error error => pure (path, .error (faultOf error))

/-- The files that were loaded, where `created` tells what came of making a file. -/
def fileSystem (loaded : List (String × Except FileFault Bytes))
    (created : Except FileFault Unit) : FileSystem where
  contents path :=
    match loaded.find? (·.1 == path) with
    | some (_, .ok bytes) => .ok (bytes, .clean)
    | some (_, .error fault) => .error fault
    | none => .error .notFound
  create _ := created
  sameFile path other := path == other
  sameFile_self _ _ := beq_self_eq_true _

/-- A report as it is kept on disk. -/
def reportText : Report → String
  | .text text => text
  | .columns file =>
    (Json.array (file.groups.map fun group =>
      .objectOf ((group.schema.zip group.columns).map fun ((name, _), cells) =>
        (name, .array (cells.map fun cell => (cell.value?.map Value.toJson).getD .null))))).pretty

/-- Prints the text and the message of an outcome and gives the exit code. -/
def finish (outcome : Outcome) : IO UInt32 := do
  IO.print outcome.stdout
  match outcome.stderr with
  | some text => IO.eprint text
  | none => pure ()
  pure (UInt32.ofNat outcome.code)

/-- Runs a command on the files of the system. -/
def execute (settings : Settings) : IO UInt32 := do
  let onTerminal ← (← IO.getStdout).isTty
  let loaded ← settings.inputs.mapM load
  let outcome := Command.run onTerminal (fileSystem loaded (.ok ())) settings
  match outcome.written with
  | none => finish outcome
  | some (path, report) =>
    match ← (IO.FS.writeFile path (reportText report)).toBaseIO with
    | .ok () => finish outcome
    | .error error =>
      finish (Command.run onTerminal (fileSystem loaded (.error (faultOf error))) settings)

end DocTable.Main

/-- Runs the command that the arguments ask for. -/
def main (arguments : List String) : IO UInt32 := do
  match DocTable.Arguments.read arguments with
  | .run settings => DocTable.Main.execute settings
  | .version =>
    IO.print DocTable.Command.versionText
    pure 0
  | .help =>
    IO.print "Flatten BSON dumps or Extended JSON lines into typed tables\n"
    pure 0
  | .refused =>
    IO.eprint "error: the arguments were not understood\n"
    pure 2

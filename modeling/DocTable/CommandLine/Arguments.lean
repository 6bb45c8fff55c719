import DocTable.Format
import DocTable.Table.Cell

/-!
# Command-line arguments

Options may be written short or long, with the value in the same argument or in the next one; short
options without a value may be run together. An option is given at most once, and what looks like an
option is never taken as a value. Behind a double dash everything is the name of an input.
-/

set_option autoImplicit false

namespace DocTable

/-- When text on a terminal is coloured. -/
inductive ColorChoice where
  /-- Where a terminal shows it. -/
  | auto
  | always
  | never
  deriving DecidableEq, Repr

/-- What the arguments ask for. An option that was not given is none. -/
structure Settings where
  inputs : List String
  format : Option OutputFormat
  inputFormat : Option InputFormat
  pageSize : Option Nat
  maxPages : Option Nat
  output : Option String
  bigintAsString : Bool
  dateAsString : Bool
  statsOnly : Bool
  color : Option ColorChoice
  verbose : Bool
  deriving DecidableEq, Repr

namespace Settings

/-- Nothing asked for. -/
def initial : Settings :=
  ⟨[], none, none, none, none, none, false, false, false, none, false⟩

/-- The rows of a page where nothing else is asked for. -/
def defaultPageSize : Nat := 1000

end Settings

/-- The outcome of reading the arguments. -/
inductive Invocation where
  | run (settings : Settings)
  | version
  | help
  /-- The arguments make no sense. -/
  | refused
  deriving DecidableEq, Repr

namespace Arguments

/-- An option that takes a value. -/
inductive Valued where
  | format
  | inputFormat
  | pageSize
  | maxPages
  | output
  | color
  deriving DecidableEq, Repr

/-- An option that stands for itself. -/
inductive Switch where
  | bigintAsString
  | dateAsString
  | statsOnly
  | verbose
  | version
  | help
  deriving DecidableEq, Repr

/-- An option of either kind. -/
inductive Opt where
  | valued (option : Valued)
  | switch (option : Switch)
  deriving DecidableEq, Repr

/-- The option of a long name. -/
def long? (name : String) : Option Opt :=
  match name with
  | "format" => some (.valued .format)
  | "input-format" => some (.valued .inputFormat)
  | "page-size" => some (.valued .pageSize)
  | "max-pages" => some (.valued .maxPages)
  | "output" => some (.valued .output)
  | "color" => some (.valued .color)
  | "bigint-as-string" => some (.switch .bigintAsString)
  | "date-as-string" => some (.switch .dateAsString)
  | "stats-only" => some (.switch .statsOnly)
  | "verbose" => some (.switch .verbose)
  | "version" => some (.switch .version)
  | "help" => some (.switch .help)
  | _ => none

/-- The option of a letter. -/
def short? (letter : Char) : Option Opt :=
  match letter with
  | 'f' => some (.valued .format)
  | 'i' => some (.valued .inputFormat)
  | 'n' => some (.valued .pageSize)
  | 'o' => some (.valued .output)
  | 'v' => some (.switch .verbose)
  | 'V' => some (.switch .version)
  | 'h' => some (.switch .help)
  | _ => none

/-- The output format of an option's value. -/
def format? (value : String) : Option OutputFormat :=
  match value with
  | "terminal" => some .terminal
  | "json" => some .json
  | "csv" => some .csv
  | "parquet" => some .parquet
  | _ => none

/-- The input format of an option's value. -/
def inputFormat? (value : String) : Option InputFormat :=
  match value with
  | "auto" => some .auto
  | "bson" => some .bson
  | "jsonl" => some .jsonLines
  | _ => none

/-- The colour choice of an option's value. -/
def color? (value : String) : Option ColorChoice :=
  match value with
  | "auto" => some .auto
  | "always" => some .always
  | "never" => some .never
  | _ => none

/-- A number of 64 bits. -/
def count? (value : String) : Option Nat :=
  ((IntegerRange.unsigned 64).decimal? value).map Int.toNat

/-- Puts a value in a place that must still be empty. -/
def fresh {α : Type} (old : Option α) (value : Option α) : Option (Option α) :=
  if old.isSome then none else value.map some

/-- The settings with the value of an option. -/
def setValue (settings : Settings) (option : Valued) (value : String) : Option Settings :=
  match option with
  | .format =>
    (fresh settings.format (format? value)).map fun v => { settings with format := v }
  | .inputFormat =>
    (fresh settings.inputFormat (inputFormat? value)).map fun v =>
      { settings with inputFormat := v }
  | .pageSize =>
    (fresh settings.pageSize ((count? value).filter (0 < ·))).map fun v =>
      { settings with pageSize := v }
  | .maxPages =>
    (fresh settings.maxPages (count? value)).map fun v => { settings with maxPages := v }
  | .output =>
    (fresh settings.output (if value = "" then none else some value)).map fun v =>
      { settings with output := v }
  | .color => (fresh settings.color (color? value)).map fun v => { settings with color := v }

/-- The settings with a switch on. -/
def setSwitch (settings : Settings) (option : Switch) : Except Invocation Settings :=
  match option with
  | .bigintAsString =>
    if settings.bigintAsString then .error .refused
    else .ok { settings with bigintAsString := true }
  | .dateAsString =>
    if settings.dateAsString then .error .refused else .ok { settings with dateAsString := true }
  | .statsOnly =>
    if settings.statsOnly then .error .refused else .ok { settings with statsOnly := true }
  | .verbose =>
    if settings.verbose then .error .refused else .ok { settings with verbose := true }
  | .version => .error .version
  | .help => .error .help

/-- The settings with one more input. -/
def addInput (settings : Settings) (path : String) : Except Invocation Settings :=
  if path = "" then .error .refused else .ok { settings with inputs := settings.inputs ++ [path] }

/-- The settings with the value of an option, or a refusal. -/
def orRefuse (settings : Option Settings) : Except Invocation Settings :=
  match settings with
  | some settings => .ok settings
  | none => .error .refused

/-- What an argument asks for, before the next one is seen. -/
inductive Step where
  | done (settings : Settings)
  /-- The next argument is the value of this option. -/
  | awaiting (settings : Settings) (option : Valued)

/-- Takes a long option, given without its dashes. -/
def readLong (settings : Settings) (argument : List Char) : Except Invocation Step :=
  let name := String.ofList (argument.takeWhile (· != '='))
  let value := argument.dropWhile (· != '=')
  match long? name, value with
  | some (.switch option), [] => .done <$> setSwitch settings option
  | some (.valued option), [] => .ok (.awaiting settings option)
  | some (.valued option), _ :: value =>
    .done <$> orRefuse (setValue settings option (String.ofList value))
  | _, _ => .error .refused

/-- Takes short options that are run together. -/
def readShort (settings : Settings) : List Char → Except Invocation Step
  | [] => .ok (.done settings)
  | letter :: rest =>
    match short? letter with
    | none => .error .refused
    | some (.switch option) => do
      let settings ← setSwitch settings option
      readShort settings rest
    | some (.valued option) =>
      match rest with
      | [] => .ok (.awaiting settings option)
      | '=' :: value => .done <$> orRefuse (setValue settings option (String.ofList value))
      | value => .done <$> orRefuse (setValue settings option (String.ofList value))

/-- Takes the arguments from left to right. -/
def readAll : Settings → List String → Except Invocation Settings
  | settings, [] => .ok settings
  | settings, argument :: arguments =>
    match argument.toList with
    | ['-', '-'] => arguments.foldlM addInput settings
    | '-' :: '-' :: name => do
      match ← readLong settings name with
      | .done settings => readAll settings arguments
      | .awaiting settings option => awaitValue settings option arguments
    | '-' :: letter :: letters => do
      match ← readShort settings (letter :: letters) with
      | .done settings => readAll settings arguments
      | .awaiting settings option => awaitValue settings option arguments
    | _ => do
      let settings ← addInput settings argument
      readAll settings arguments
where
  /-- Takes the next argument as a value, unless it looks like an option. -/
  awaitValue : Settings → Valued → List String → Except Invocation Settings
    | _, _, [] => .error .refused
    | settings, option, argument :: arguments =>
      match argument.toList with
      | '-' :: _ :: _ => .error .refused
      | _ => do
        let settings ← orRefuse (setValue settings option argument)
        readAll settings arguments

/-- What the arguments ask for; without an input they make no sense. -/
def read (arguments : List String) : Invocation :=
  match readAll Settings.initial arguments with
  | .error invocation => invocation
  | .ok settings => if settings.inputs = [] then .refused else .run settings

end Arguments

end DocTable

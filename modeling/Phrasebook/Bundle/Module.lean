import Phrasebook.Bundle.Output
import Phrasebook.Compile
import Phrasebook.Files.Storage
import Phrasebook.Json.Reader

/-!
# The module of a file

The work on one file has two steps: making the module of what the file holds, which changes nothing,
and storing the module, for which directories are made as needed.
-/

namespace Phrasebook.Bundle

variable {m : Type → Type} [Monad m] [Storage m]

/-- Why there is no module for a file. -/
inductive FileFault where
  | unreadable (input : Path) (refusal : StorageError)
  /-- What the file holds is no JSON text. -/
  | notJson (input : Path) (report : String)
  /-- What the file holds is no messages. -/
  | unfit (input : Path) (error : InputError)
  | noDirectory (directory : Path) (refusal : StorageError)
  | unwritable (output : Path) (refusal : StorageError)
  deriving DecidableEq, Repr

/-- The words for a fault. -/
def FileFault.message : FileFault → String
  | .unreadable input refusal => s!"Failed to read {input.text}: {refusal.message}"
  | .notJson input report => s!"Failed to parse {input.text} as JSON: {report}"
  | .unfit input error => s!"Failed to compile {input.text}: {error.message}"
  | .noDirectory directory refusal => s!"Failed to create {directory.text}: {refusal.message}"
  | .unwritable output refusal => s!"Failed to write {output.text}: {refusal.message}"

/-- The module of the text in a file. -/
def moduleOf (input : Path) (text : String) : Except FileFault (Reported String) := do
  let value ← (Json.ofText text.toList).mapError fun stop =>
    .notJson input (Json.faultReport text.toList stop)
  value.compileModule.mapError (.unfit input)

/-- The module of a file. -/
def readModule (input : Path) : m (Except FileFault (Reported String)) := do
  match ← Storage.readText input with
  | .error refusal => return .error (.unreadable input refusal)
  | .ok text => return moduleOf input text

/-- Make the directory of an output. -/
def prepare (output : Path) : m (Except FileFault Unit) := do
  match output.parent? with
  | none => return .ok ()
  | some directory =>
      return (← Storage.makeDirectories directory).mapError (.noDirectory directory)

/-- Store a module. -/
def store (output : Path) (source : String) : m (Except FileFault Unit) := do
  match ← prepare output with
  | .error fault => return .error fault
  | .ok () => return (← Storage.write output source.toUTF8).mapError (.unwritable output)

/-- Make and store the module of a file.  The result is where it is stored. -/
def compileFile (directory : Option Path) (input : Path) : m (Except FileFault (Reported Path)) := do
  let output := outputPath directory input
  match ← readModule input with
  | .error fault => return .error fault
  | .ok made => return (← store output made.result).map fun _ => made.map fun _ => output

end Phrasebook.Bundle

import Phrasebook.CommandLine

/-!
# The program

The command line on the files of the machine.
-/

namespace Phrasebook.Machine

/-- A path as the machine takes it. -/
def place (path : Path) := System.mkFilePath [path.text]

/-- What an error of the machine means for a storage. -/
def refusalOf : IO.Error → StorageError
  | .noFileOrDirectory _ _ _ => .notFound
  | .alreadyExists _ _ _ => .alreadyThere
  | .inappropriateType _ 20 _ => .notDirectory
  | .inappropriateType _ 21 _ => .isDirectory
  | error => .other (toString error)

/-- Do something that the machine may refuse. -/
def attempt (action : IO α) : IO (Except StorageError α) := do
  try
    return .ok (← action)
  catch error =>
    return .error (refusalOf error)

/-- The kind of thing that the machine has at a path. -/
def kind? (path : Path) : IO (Option FileKind) := do
  match ← attempt (place path).metadata with
  | .error _ => return none
  | .ok found =>
      match found.type with
      | .file => return some .file
      | .dir => return some .directory
      | _ => return some .other

instance : Storage IO where
  kind? := kind?
  names path := attempt do return (← (place path).readDir).toList.map (·.fileName)
  read path := attempt (IO.FS.readBinFile (place path))
  makeDirectory path := attempt (IO.FS.createDir (place path))
  write path content := attempt (IO.FS.writeBinFile (place path) content)

end Phrasebook.Machine

/-- Do what the arguments ask for, print the outcome, and end with its status. -/
def main (arguments : List String) : IO UInt32 := do
  let outcome ← (Phrasebook.CommandLine.run arguments : IO Phrasebook.CommandLine.Outcome)
  IO.print outcome.output
  IO.eprint outcome.errors
  return outcome.status.toUInt32

import Phrasebook.Files.Storage
import Phrasebook.Glob.Pattern

/-!
# Searching for paths

The paths in a storage that match a pattern.  The search goes down from the directory that one is
in, or from the root, a part of the pattern at a time.  A part without wildcards is looked for by
its name; any other part is held against the names in the directory.  The entries that a directory
has for itself and for the one above it count only for parts that start with a point.
-/

namespace Phrasebook.Glob

variable {m : Type → Type} [Monad m] [Storage m]

/-! ## Entries of directories -/

/-- The path of an entry of a directory.  In the directory that one is in, entries go by their
names. -/
def entryPath (directory : Path) (name : String) : Path :=
  if directory.parts = [.here] then ⟨name⟩ else directory.join name

/-- The entries that every directory has for itself and for the one above it, the last one first. -/
def dotEntries : List String := ["..", "."]

/-- Whether a directory has an entry of a name. -/
def hasEntry (directory : Path) (name : String) : m Bool := do
  if name ∈ dotEntries then Storage.isDirectory directory
  else return (← Storage.kind? (entryPath directory name)).isSome

/-- The names in a directory in order, or none if they cannot be told. -/
def sortedNames (directory : Path) : m (List String) := do
  match ← Storage.names directory with
  | .ok names => return names.mergeSort
  | .error _ => return []

/-! ## Parts of patterns -/

/-- The name that a part without wildcards asks for. -/
def PartPattern.fixedName? : PartPattern → Option String
  | .anyDepth => none
  | .name tokens => (spelled? tokens).map String.ofList

/-- Whether a part matches a name; a part for any number of directories is about more than one
name and matches none. -/
def PartPattern.matchesName (part : PartPattern) (name : String) : Bool :=
  match part with
  | .anyDepth => false
  | .name tokens => matchesTokens tokens name.toList

/-- The entries for a directory itself and the one above it that a part asks for. -/
def PartPattern.dotNames (part : PartPattern) : List String :=
  match part with
  | .name (.char '.' :: _) => dotEntries.filter part.matchesName
  | _ => []

/-! ## Searching -/

/-- Go on from a path that matches a pattern so far: search it for the parts that are left, or take
it if there are none. -/
def goOn (search : List PartPattern → Path → m (List Path)) (directoriesOnly : Bool)
    (parts : List PartPattern) (path : Path) : m (List Path) := do
  if !parts.isEmpty then search parts path
  else if directoriesOnly && !(← Storage.isDirectory path) then return []
  else return [path]

/-- Hold parts of a pattern against a path with this name. -/
def visitName (search : List PartPattern → Path → m (List Path)) (directoriesOnly : Bool)
    (parts : List PartPattern) (path : Path) (name : String) : m (List Path) := do
  match parts with
  | [] => return []
  | part :: rest =>
      if part.matchesName name then goOn search directoriesOnly rest path else return []

/-- Hold parts of a pattern against an entry of a directory.  If the first part is for any number of
directories, the entry may be the last of them, and if it is a directory it may be one of them. -/
def visit (search : List PartPattern → Path → m (List Path)) (directoriesOnly : Bool)
    (parts : List PartPattern) (path : Path) (name : String) : m (List Path) := do
  match parts with
  | .anyDepth :: others =>
      let rest := others.dropWhile (· = .anyDepth)
      if !(← Storage.isDirectory path) then visitName search directoriesOnly rest path name
      else
        let own ← if rest.isEmpty then pure [path]
          else visitName search directoriesOnly rest path name
        return own ++ (← search (.anyDepth :: rest) path)
  | _ => visitName search directoriesOnly parts path name

/-- The paths in a directory that match parts of a pattern.  Every step down takes one of `steps`. -/
def searchIn (directoriesOnly : Bool) (steps : Nat) (parts : List PartPattern) (directory : Path) :
    m (List Path) := do
  match steps, parts with
  | 0, _ | _, [] => return []
  | steps + 1, part :: rest =>
      let search := searchIn directoriesOnly steps
      match part.fixedName? with
      | some name =>
          if ← hasEntry directory name then
            goOn search directoriesOnly rest (entryPath directory name)
          else return []
      | none =>
          if !(← Storage.isDirectory directory) then return []
          let dots ← part.dotNames.mapM fun name =>
            goOn search directoriesOnly rest (directory.join name)
          let entries ← (← sortedNames directory).mapM fun name =>
            visit search directoriesOnly (part :: rest) (entryPath directory name) name
          return (dots ++ entries).flatten

/-- No path is longer than this, so no search goes deeper. -/
def longestPath : Nat := 4096

/-- The paths in a storage that match a pattern. -/
def Pattern.paths (pattern : Pattern) : m (List Path) :=
  searchIn pattern.directoriesOnly (pattern.parts.length + longestPath) pattern.parts
    ⟨if pattern.rooted then "/" else "."⟩

end Phrasebook.Glob

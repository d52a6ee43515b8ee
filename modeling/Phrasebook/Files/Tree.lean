import Phrasebook.Files.Storage

/-!
# Trees of files

A storage in memory.  Files and directories are kept by their locations: the names that lead to
them from the top of the tree, which is a directory and always there.  Nothing is above the top.
-/

namespace Phrasebook

open Text

/-- The names that lead to a file or directory from the top of a tree. -/
abbrev Location := List String

/-- What a tree keeps at a location. -/
inductive Node where
  | file (content : ByteArray)
  | directory

/-- Which kind of thing a node is. -/
def Node.kind : Node → FileKind
  | .file _ => .file
  | .directory => .directory

/-- Files and directories by location. -/
structure FileTree where
  nodes : List (Location × Node) := []

namespace FileTree

/-- What is at a location. -/
def node? (tree : FileTree) (location : Location) : Option Node :=
  if location = [] then some .directory
  else (tree.nodes.find? fun entry => entry.1 = location).map Prod.snd

/-- Put something at a location. -/
def put (tree : FileTree) (location : Location) (node : Node) : FileTree :=
  ⟨(location, node) :: tree.nodes⟩

/-- The location that pieces of a path lead to from a directory.  Every piece but the last has to
lead to a directory. -/
def follow (tree : FileTree) (start : Location) : (pieces : List (List Char)) →
    Except StorageError Location
  | [] => .ok start
  | piece :: pieces =>
      match tree.node? start, Part.ofPiece? piece with
      | none, _ => .error .notFound
      | some (.file _), _ => .error .notDirectory
      | some .directory, none => tree.follow start pieces
      | some .directory, some (.name text) => tree.follow (start ++ [text]) pieces
      | some .directory, some _ =>
          if start = [] then .error .notFound else tree.follow start.dropLast pieces

/-- The location that a path leads to from the top of the tree. -/
def locate (tree : FileTree) (path : Path) : Except StorageError Location :=
  if path.text = "" ∨ path.isRooted then .error .notFound
  else tree.follow [] (path.text.toList.splitOn '/')

/-- What is at a path, and its location. -/
def find (tree : FileTree) (path : Path) : Except StorageError (Location × Option Node) :=
  (tree.locate path).map fun location => (location, tree.node? location)

/-- What is at a path. -/
def kind? (tree : FileTree) (path : Path) : Option FileKind :=
  match tree.find path with
  | .ok (_, some node) => some node.kind
  | _ => none

/-- The names in the directory at a location. -/
def namesIn (tree : FileTree) (location : Location) : List String :=
  (tree.nodes.filterMap fun entry =>
    if entry.1.dropLast = location then entry.1.getLast? else none).eraseDups

/-- The names in a directory. -/
def names (tree : FileTree) (path : Path) : Except StorageError (List String) := do
  match ← tree.find path with
  | (location, some .directory) => .ok (tree.namesIn location)
  | (_, some (.file _)) => .error .notDirectory
  | (_, none) => .error .notFound

/-- The content of a file. -/
def read (tree : FileTree) (path : Path) : Except StorageError ByteArray := do
  match ← tree.find path with
  | (_, some (.file content)) => .ok content
  | (_, some .directory) => .error .isDirectory
  | (_, none) => .error .notFound

/-- Make a directory in one that is there. -/
def makeDirectory (tree : FileTree) (path : Path) : Except StorageError FileTree := do
  match ← tree.find path with
  | (location, none) => .ok (tree.put location .directory)
  | (_, some _) => .error .alreadyThere

/-- Make a file, or replace the content of one. -/
def write (tree : FileTree) (path : Path) (content : ByteArray) :
    Except StorageError FileTree := do
  match ← tree.find path with
  | (_, some .directory) => .error .isDirectory
  | (location, _) => .ok (tree.put location (.file content))

/-- All files, by location, with what they hold. -/
def files (tree : FileTree) : List (Location × ByteArray) :=
  (tree.nodes.map Prod.fst).eraseDups.filterMap fun location =>
    match tree.node? location with
    | some (.file content) => some (location, content)
    | _ => none

/-- Do something to a tree that may be refused; a refusal leaves the tree alone. -/
def attempt (change : FileTree → Except StorageError FileTree) :
    StateM FileTree (Except StorageError Unit) := fun tree =>
  match change tree with
  | .ok changed => (.ok (), changed)
  | .error refusal => (.error refusal, tree)

instance : Storage (StateM FileTree) where
  kind? path := do return (← get).kind? path
  names path := do return (← get).names path
  read path := do return (← get).read path
  makeDirectory path := attempt (·.makeDirectory path)
  write path content := attempt (·.write path content)

end FileTree

end Phrasebook

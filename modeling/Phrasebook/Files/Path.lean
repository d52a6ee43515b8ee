import Phrasebook.Text.Pieces

/-!
# Paths

A path is kept as it was written.  What it names is told by its parts: repeated slashes, slashes at
the end, and points that stand for the directory one is in do not count, except for such a point at
the very front.  Two paths are the same when their parts are, and paths are put in order part by
part.
-/

namespace Phrasebook

open Text

/-- A step of a path. -/
inductive Part where
  /-- The root of all paths. -/
  | root
  /-- The directory one is in. -/
  | here
  /-- The directory above. -/
  | up
  /-- What has this name in a directory. -/
  | name (text : String)
  deriving DecidableEq, Repr

namespace Part

/-- The place of a part among those of other kinds. -/
def rank : Part → Nat
  | .root => 0
  | .here => 1
  | .up => 2
  | .name _ => 3

/-- The order of parts.  Names are in the order of their characters. -/
def order : Part → Part → Ordering
  | .name a, .name b => compare a b
  | a, b => compare a.rank b.rank

/-- The part that a piece between slashes stands for, if it counts. -/
def ofPiece? : List Char → Option Part
  | [] | ['.'] => none
  | ['.', '.'] => some .up
  | piece => some (.name (String.ofList piece))

end Part

/-- A path, as it was written. -/
structure Path where
  text : String
  deriving DecidableEq, Repr

namespace Path

/-- Whether a path starts at the root. -/
def isRooted (path : Path) : Bool :=
  path.text.toList.head? = some '/'

/-- The part at the front of a path that is not like the others. -/
def lead (path : Path) : List Part :=
  if path.isRooted then [.root]
  else if (path.text.toList.splitOn '/').head? = some ['.'] then [.here]
  else []

/-- The parts of a path. -/
def parts (path : Path) : List Part :=
  path.lead ++ (path.text.toList.splitOn '/').filterMap Part.ofPiece?

/-- The order of paths is that of their parts. -/
def order (a b : Path) : Ordering :=
  List.compareLex Part.order a.parts b.parts

/-! ## Names -/

/-- The name at the end of a path. -/
def fileName? (path : Path) : Option String :=
  match path.parts.getLast? with
  | some (.name text) => some text
  | _ => none

/-- A name without what its last point begins, unless the point is at the front. -/
def stemOf (name : String) : String :=
  String.ofList ((beforeLast? '.' name.toList).getD name.toList)

/-- The stem of the name at the end of a path; nothing if there is no name. -/
def stem (path : Path) : String :=
  (path.fileName?.map stemOf).getD ""

/-! ## Going up and down -/

/-- The path written with these pieces, the last one first. -/
def ofPieces (rooted : Bool) (pieces : List (List Char)) : Path :=
  ⟨String.ofList ((if rooted then ['/'] else []) ++ ['/'].intercalate pieces.reverse)⟩

/-- Whether a piece counts as a part, given the pieces before it. -/
def counts (rooted : Bool) (piece : List Char) (before : List (List Char)) : Bool :=
  (Part.ofPiece? piece).isSome || (!rooted && before.isEmpty && piece = ['.'])

/-- The paths that are left when pieces are dropped from the end, a part at a time. -/
def shortened (rooted : Bool) : (pieces : List (List Char)) → List Path
  | [] => [ofPieces rooted []]
  | piece :: before =>
      if counts rooted piece before then ofPieces rooted (piece :: before) :: shortened rooted before
      else shortened rooted before

/-- A path, the directory that it is in, the directory that this one is in, and so on. -/
def ancestors (path : Path) : List Path :=
  let body := if path.isRooted then path.text.toList.tail else path.text.toList
  shortened path.isRooted (body.splitOn '/').reverse

/-- The directory that a path is in. -/
def parent? (path : Path) : Option Path :=
  path.ancestors.tail.head?

/-- The path of what has this name in a directory. -/
def join (directory : Path) (name : String) : Path :=
  match directory.text.toList.getLast? with
  | none | some '/' => ⟨directory.text ++ name⟩
  | some _ => ⟨directory.text ++ "/" ++ name⟩

/-- The path with another name at its end. -/
def withFileName (path : Path) (name : String) : Path :=
  match path.fileName?, path.parent? with
  | some _, some directory => directory.join name
  | _, _ => path.join name

/-! ## Lists of paths -/

/-- The paths of a list that differ from the one before them, the first compared with `last`. -/
def dropRepeatsOf (last : Path) : List Path → List Path
  | [] => []
  | path :: rest =>
      if path.parts = last.parts then dropRepeatsOf last rest else path :: dropRepeatsOf path rest

/-- The paths of a list, each one once, where the same paths stand side by side. -/
def dropRepeats : List Path → List Path
  | [] => []
  | path :: rest => path :: dropRepeatsOf path rest

/-- Paths in order, each one once.  Of the same paths the one that comes first is kept. -/
def sorted (paths : List Path) : List Path :=
  dropRepeats (paths.mergeSort fun a b => (a.order b).isLE)

end Path

end Phrasebook

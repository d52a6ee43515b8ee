import Mathlib.Data.Finmap
import Mathlib.Data.Finset.Sort
import Mathlib.Data.String.Basic
import Phrasebook.Files.Storage
import Phrasebook.Proofs.Files.Path

/-!
# Disks

A disk is nothing but a finite map from places to what the files there hold.  Directories
are not kept: one is there wherever a file lies below, and one can be made wherever no file
is in the way.  Paths with different parts are different, even if one leads through the
directory one is in, or up and down again.

Main results:

- Theorem `Path.place?_eq_some_iff`: a path names a place if it has its parts.
- Theorem `FileMap.bars_insert`, `FileMap.below_insert`: what a new file is in the way of,
  and where it makes directories.
- Theorem `Disk.kind?_of_bars`: where a file is in the way there is no directory.
-/

namespace Phrasebook

/-! ## Places -/

/-- Where a file can be: its name, and the parts above it. -/
structure Place where
  above : List Part
  name : String
  deriving DecidableEq

/-- The parts of a place. -/
def Place.parts (place : Place) : List Part :=
  place.above ++ [.name place.name]

/-- A place is told by its parts. -/
theorem Place.parts_injective : Function.Injective Place.parts := by
  intro a b hsame
  obtain ⟨habove, hname⟩ := List.append_inj' hsame rfl
  cases a
  cases b
  simp_all

/-- The place that a path names, if its last part is a name. -/
def Path.place? (path : Path) : Option Place :=
  path.fileName?.map fun name => ⟨path.parts.dropLast, name⟩

/-- A path names a place if it has its parts. -/
theorem Path.place?_eq_some_iff {path : Path} {place : Place} :
    path.place? = some place ↔ path.parts = place.parts := by
  obtain ⟨above, name⟩ := place
  constructor
  · intro hplace
    obtain ⟨found, hfound, hsame⟩ := Option.map_eq_some_iff.mp hplace
    obtain ⟨rfl, rfl⟩ := Place.mk.inj hsame
    obtain ⟨front, hparts⟩ := exists_above_of_fileName? hfound
    simp [Place.parts, hparts]
  · intro hparts
    rw [place?, fileName?_of_parts hparts, hparts]
    simp [Place.parts]

/-! ## Disks -/

/-- What files hold, by place. -/
abbrev FileMap := Finmap fun _ : Place => ByteArray

namespace FileMap

/-- Some file is at these parts or above them. -/
def Bars (files : FileMap) (parts : List Part) : Prop :=
  ∃ place ∈ files.keys, place.parts <+: parts

/-- Some file is below these parts. -/
def Below (files : FileMap) (parts : List Part) : Prop :=
  ∃ place ∈ files.keys, parts <+: place.above

instance (files : FileMap) (parts : List Part) : Decidable (files.Bars parts) :=
  inferInstanceAs (Decidable (∃ place ∈ files.keys, place.parts <+: parts))

instance (files : FileMap) (parts : List Part) : Decidable (files.Below parts) :=
  inferInstanceAs (Decidable (∃ place ∈ files.keys, parts <+: place.above))

/-- A new file bars what is at its parts and below. -/
theorem bars_insert {files : FileMap} {place : Place} {content : ByteArray}
    {parts : List Part} :
    Bars (files.insert place content) parts ↔ place.parts <+: parts ∨ files.Bars parts := by
  simp [Bars, Finmap.mem_keys, Finmap.mem_insert, or_and_right, exists_or]

/-- A new file is below all that is above it. -/
theorem below_insert {files : FileMap} {place : Place} {content : ByteArray}
    {parts : List Part} :
    Below (files.insert place content) parts ↔ parts <+: place.above ∨ files.Below parts := by
  simp [Below, Finmap.mem_keys, Finmap.mem_insert, or_and_right, exists_or]

/-- The parts of the directory that a path leads to, if it leads to one: the directory that
one is in may be named or left out. -/
def location (parts : List Part) : List Part :=
  if parts = [.here] then [] else parts

/-- A directory is where no file is in the way and files lie below; the root and the
directory that one is in are always there. -/
def HasDirectory (files : FileMap) (parts : List Part) : Prop :=
  ¬ files.Bars parts ∧ (location parts ∈ [[], [.root]] ∨ files.Below (location parts))

instance (files : FileMap) (parts : List Part) : Decidable (files.HasDirectory parts) :=
  inferInstanceAs (Decidable (_ ∧ _))

/-- The names of what is in a directory. -/
def namesIn (files : FileMap) (parts : List Part) : Finset String :=
  files.keys.biUnion fun place =>
    match place.parts.drop parts.length with
    | .name text :: _ => if parts <+: place.parts then {text} else ∅
    | _ => ∅

end FileMap

/-- What is forbidden on a disk, for reasons of its own. -/
structure Guard where
  reading : Place → Option StorageError
  writing : Place → Option StorageError

/-- A disk with its files. -/
structure Disk (guard : Guard) where
  files : FileMap

namespace Disk

variable {guard : Guard}

/-- What is at a path. -/
def kind? (disk : Disk guard) (path : Path) : Option FileKind :=
  if (path.place?.bind disk.files.lookup).isSome then some .file
  else if disk.files.HasDirectory path.parts then some .directory
  else none

/-- The names in a directory, in order. -/
def names (disk : Disk guard) (path : Path) : Except StorageError (List String) :=
  match disk.kind? path with
  | some .directory => .ok ((disk.files.namesIn (FileMap.location path.parts)).sort (· ≤ ·))
  | some _ => .error .notDirectory
  | none => .error .notFound

/-- The content of a file. -/
def read (disk : Disk guard) (path : Path) : Except StorageError ByteArray :=
  match path.place? with
  | none => .error .isDirectory
  | some place =>
      match guard.reading place, disk.files.lookup place with
      | some refusal, _ => .error refusal
      | none, some content => .ok content
      | none, none => .error .notFound

/-- Make a directory, unless a file is in the way. -/
def makeDirectory (disk : Disk guard) (path : Path) : Except StorageError Unit :=
  if disk.files.Bars path.parts then
    .error (if disk.kind? path = some .file then .alreadyThere else .notDirectory)
  else .ok ()

/-- Put a file at a place. -/
def insert (disk : Disk guard) (place : Place) (content : ByteArray) : Disk guard :=
  ⟨disk.files.insert place content⟩

/-- Files at different places can be put there in any order. -/
theorem insert_comm (disk : Disk guard) {a b : Place} (hne : a ≠ b)
    (contentA contentB : ByteArray) :
    (disk.insert b contentB).insert a contentA = (disk.insert a contentA).insert b contentB :=
  congrArg Disk.mk (Finmap.insert_insert_of_ne disk.files (Ne.symm hne))

/-- Why a file cannot be stored at a place, if it cannot. -/
def refusal? (disk : Disk guard) (place : Place) : Option StorageError :=
  match guard.writing place with
  | some refusal => some refusal
  | none =>
      if disk.files.Bars place.above then some .notDirectory
      else if disk.files.Below place.parts then some .isDirectory
      else none

/-- Make a file, or replace the content of one. -/
def write (disk : Disk guard) (path : Path) (content : ByteArray) :
    Except StorageError (Disk guard) :=
  match path.place? with
  | none => .error .isDirectory
  | some place =>
      match disk.refusal? place with
      | some refusal => .error refusal
      | none => .ok (disk.insert place content)

/-- Do something to a disk that may be refused; a refusal leaves the disk alone. -/
def attempt (change : Disk guard → Except StorageError (Disk guard)) :
    StateM (Disk guard) (Except StorageError Unit) := fun disk =>
  match change disk with
  | .ok changed => (.ok (), changed)
  | .error refusal => (.error refusal, disk)

instance : Storage (StateM (Disk guard)) where
  kind? path := do return (← get).kind? path
  names path := do return (← get).names path
  read path := do return (← get).read path
  makeDirectory path := do return (← get).makeDirectory path
  write path content := attempt (·.write path content)

/-- A file is at a path if one is at the place that it names. -/
theorem kind?_eq_file_iff {disk : Disk guard} {path : Path} :
    disk.kind? path = some .file ↔ ∃ place ∈ disk.files, path.place? = some place := by
  have hsome : (path.place?.bind disk.files.lookup).isSome ↔
      ∃ place ∈ disk.files, path.place? = some place := by
    cases hplace : path.place? with
    | none => simp
    | some place => simp [Finmap.lookup_isSome]
  rw [← hsome, kind?]
  split
  · simp_all
  · split <;> simp_all

/-- Where a file is in the way there is no directory. -/
theorem kind?_of_bars {disk : Disk guard} {path : Path}
    (hbars : disk.files.Bars path.parts) :
    disk.kind? path = some .file ∨ disk.kind? path = none := by
  unfold kind?
  split
  · exact .inl rfl
  · rw [if_neg fun hdirectory => hdirectory.1 hbars]
    exact .inr rfl

/-- A file that may be stored has no file above it, and nothing below it. -/
theorem of_refusal?_eq_none {disk : Disk guard} {place : Place}
    (hnone : disk.refusal? place = none) :
    ¬ disk.files.Bars place.above ∧ ¬ disk.files.Below place.parts := by
  unfold refusal? at hnone
  split at hnone
  · cases hnone
  · split at hnone
    · cases hnone
    · split at hnone
      · cases hnone
      · exact ⟨by assumption, by assumption⟩

/-- What is read from a file is what it holds. -/
theorem lookup_of_read {disk : Disk guard} {path : Path} {place : Place} {content : ByteArray}
    (hplace : path.place? = some place) (hread : disk.read path = .ok content) :
    disk.files.lookup place = some content := by
  simp only [read, hplace] at hread
  cases hrefusal : guard.reading place with
  | some refusal => simp [hrefusal] at hread
  | none =>
    cases hcontent : disk.files.lookup place with
    | none => simp [hrefusal, hcontent] at hread
    | some found => simpa [hrefusal, hcontent] using hread

end Disk

end Phrasebook

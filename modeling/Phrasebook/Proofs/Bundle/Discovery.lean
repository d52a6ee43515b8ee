import Phrasebook.Bundle.Discovery
import Phrasebook.Proofs.Files.Order
import Phrasebook.Proofs.Text.Longer

/-!
# Finding files changes nothing

Finding files only looks at a storage.  If looking leaves the storage as it is, so does the
whole search, and what is found is there when the search ends.

Main results:

- Theorem `ascending_discover`: the files that are found are in order, each one once.
- Theorem `Quiet.searchIn`: searching for paths leaves the storage as it was.
- Theorem `discover_quiet`: so does finding files, and all that is found are files.
-/

namespace Phrasebook

variable {σ : Type} {α β : Type}

/-! ## Actions that change nothing -/

/-- A run of one action after another goes on where the first one ended. -/
theorem run_bind_eq (first : StateM σ α) (next : α → StateM σ β) (start : σ) :
    (first >>= next).run start = (next (first.run start).1).run (first.run start).2 :=
  rfl

/-- An action leaves the state as it is. -/
def Quiet (action : StateM σ α) : Prop :=
  ∀ s, (action.run s).2 = s

namespace Quiet

/-- Giving a value changes nothing. -/
theorem pure (value : α) : Quiet (pure value : StateM σ α) :=
  fun _ => rfl

/-- Two actions that change nothing do so one after the other. -/
theorem bind {first : StateM σ α} {next : α → StateM σ β} (hfirst : Quiet first)
    (hnext : ∀ value, Quiet (next value)) : Quiet (first >>= next) := by
  intro s
  rw [run_bind_eq, hnext, hfirst]

/-- The second of two actions runs where the first one did, if this changes nothing. -/
theorem run_bind {first : StateM σ α} (hfirst : Quiet first) (next : α → StateM σ β) (s : σ) :
    (first >>= next).run s = (next (first.run s).1).run s := by
  rw [run_bind_eq, hfirst]

/-- Doing something with each value of a list changes nothing if each time it does not. -/
theorem mapM {f : α → StateM σ β} (hf : ∀ value, Quiet (f value)) (values : List α) :
    Quiet (values.mapM f) := by
  induction values with
  | nil => exact pure []
  | cons value values ih =>
    rw [List.mapM_cons]
    exact (hf value).bind fun first => ih.bind fun others => pure _

/-- Testing the values of a list changes nothing if no test does. -/
theorem filterM {test : α → StateM σ Bool} (htest : ∀ value, Quiet (test value))
    (values : List α) (s : σ) :
    (values.filterM test).run s = (values.filter fun value => ((test value).run s).1, s) := by
  have haux : ∀ kept : List α, (values.filterAuxM test kept).run s =
      ((values.filter fun value => ((test value).run s).1).reverse ++ kept, s) := by
    induction values with
    | nil => intro kept; rfl
    | cons value values ih =>
      intro kept
      rw [List.filterAuxM, (htest value).run_bind, ih]
      cases hvalue : ((test value).run s).1 <;> simp [hvalue]
  rw [List.filterM, run_bind_eq, haux, List.append_nil, List.reverse_reverse]
  rfl

end Quiet

/-! ## Storages that can be looked at -/

/-- Looking at a storage leaves it as it is. -/
class Observable (σ : Type) [Storage (StateM σ)] : Prop where
  kind? : ∀ path, Quiet (Storage.kind? path : StateM σ _)
  names : ∀ path, Quiet (Storage.names path : StateM σ _)

section Searching

variable [Storage (StateM σ)] [Observable σ]

namespace Quiet

/-- Looking for a file changes nothing. -/
theorem isFile (path : Path) : Quiet (Storage.isFile path : StateM σ _) :=
  (Observable.kind? path).bind fun _ => pure _

/-- Looking for a directory changes nothing. -/
theorem isDirectory (path : Path) : Quiet (Storage.isDirectory path : StateM σ _) :=
  (Observable.kind? path).bind fun _ => pure _

open Glob

/-- Looking for an entry changes nothing. -/
theorem hasEntry (directory : Path) (name : String) :
    Quiet (hasEntry directory name : StateM σ _) := by
  unfold Glob.hasEntry
  split
  · exact isDirectory directory
  · exact (Observable.kind? _).bind fun _ => pure _

/-- Listing a directory changes nothing. -/
theorem sortedNames (directory : Path) : Quiet (sortedNames directory : StateM σ _) := by
  refine (Observable.names directory).bind fun names? => ?_
  cases names? <;> exact pure _

variable {search : List PartPattern → Path → StateM σ (List Path)}

/-- Going on with a search changes nothing if the search does not. -/
theorem goOn (hsearch : ∀ parts path, Quiet (search parts path)) (directoriesOnly : Bool)
    (parts : List PartPattern) (path : Path) :
    Quiet (goOn search directoriesOnly parts path) := by
  unfold Glob.goOn
  split
  · exact hsearch parts path
  · refine (isDirectory path).bind fun found => ?_
    split <;> exact pure _

/-- Holding parts against a name changes nothing if the search does not. -/
theorem visitName (hsearch : ∀ parts path, Quiet (search parts path)) (directoriesOnly : Bool)
    (parts : List PartPattern) (path : Path) (name : String) :
    Quiet (visitName search directoriesOnly parts path name) := by
  unfold Glob.visitName
  split
  · exact pure _
  · split
    · exact goOn hsearch directoriesOnly _ path
    · exact pure _

/-- Holding parts against an entry changes nothing if the search does not. -/
theorem visit (hsearch : ∀ parts path, Quiet (search parts path)) (directoriesOnly : Bool)
    (parts : List PartPattern) (path : Path) (name : String) :
    Quiet (visit search directoriesOnly parts path name) := by
  unfold Glob.visit
  split
  · refine (isDirectory path).bind fun found => ?_
    split
    · exact visitName hsearch directoriesOnly _ path name
    · split
      · exact (pure [path]).bind fun own => (hsearch _ path).bind fun below => pure _
      · exact (visitName hsearch directoriesOnly _ path name).bind fun own =>
          (hsearch _ path).bind fun below => pure _
  · exact visitName hsearch directoriesOnly parts path name

/-- Searching changes nothing. -/
theorem searchIn (directoriesOnly : Bool) (steps : Nat) (parts : List PartPattern)
    (directory : Path) : Quiet (searchIn directoriesOnly steps parts directory : StateM σ _) := by
  induction steps generalizing parts directory with
  | zero => exact pure []
  | succ steps ih =>
    cases parts with
    | nil => exact pure []
    | cons part rest =>
      unfold Glob.searchIn
      cases part.fixedName? with
      | some name =>
        refine (hasEntry directory name).bind fun found => ?_
        split
        · exact goOn ih directoriesOnly rest _
        · exact pure []
      | none =>
        refine (isDirectory directory).bind fun found => ?_
        split
        · exact pure []
        · refine (mapM (fun name => goOn ih directoriesOnly rest _) part.dotNames).bind
            fun dots => ?_
          refine (sortedNames directory).bind fun names => ?_
          exact (mapM (fun name => visit ih directoriesOnly _ _ name) names).bind
            fun entries => pure _

end Quiet

end Searching

/-! ## Finding files -/

namespace Bundle

open Text

variable [Storage (StateM σ)]

/-- The files that are found are those that match, sorted. -/
theorem discover_run (patterns : List String) (s : σ) :
    (discover patterns : StateM σ _).run s =
      (((matchingAll patterns : StateM σ _).run s).1.map Path.sorted,
        ((matchingAll patterns : StateM σ _).run s).2) :=
  rfl

/-- The files that are found are in order, each one once. -/
theorem ascending_discover {patterns : List String} {inputs : List Path} {start found : σ}
    (hfound : (discover patterns : StateM σ _).run start = (.ok inputs, found)) :
    Path.Ascending inputs := by
  rw [discover_run] at hfound
  obtain ⟨paths, -, rfl⟩ := ok_of_map (congrArg Prod.fst hfound)
  exact Path.ascending_sorted paths

/-- Files that match in order, each one once, are found as they match. -/
theorem discover_of_matchingAll {patterns : List String} {inputs : List Path} {start : σ}
    (hmatching : ((matchingAll patterns : StateM σ _).run start).1 = .ok inputs)
    (hascending : Path.Ascending inputs) :
    (discover patterns : StateM σ _).run start =
      (.ok inputs, ((matchingAll patterns : StateM σ _).run start).2) := by
  rw [discover_run, hmatching]
  simp only [Except.map, Path.sorted_of_ascending hascending]

/-- All these paths are files. -/
def AllFiles (s : σ) (paths : List Path) : Prop :=
  ∀ path ∈ paths, ((Storage.kind? path : StateM σ _).run s).1 = some .file

/-- A path is a file if looking for one says so. -/
theorem isFile_run (path : Path) (s : σ) :
    ((Storage.isFile path : StateM σ _).run s).1 =
      decide (((Storage.kind? path : StateM σ _).run s).1 = some .file) :=
  rfl

variable [Observable σ]

/-- What a name or pattern stands for is found without changing anything, and all of it are
files. -/
theorem matching_run (text : String) (s : σ) :
    ((matching text : StateM σ _).run s).2 = s ∧
      ∀ found, ((matching text : StateM σ _).run s).1 = .ok found → AllFiles s found := by
  unfold matching
  rw [(Quiet.isFile _).run_bind]
  split
  · rename_i hfile
    refine ⟨rfl, fun found hfound path hpath => ?_⟩
    cases hfound
    rw [List.mem_singleton.mp hpath]
    simpa [isFile_run] using hfile
  · cases Glob.Pattern.read text.toList with
    | error error =>
      refine ⟨rfl, fun found hfound => ?_⟩
      cases hfound
    | ok pattern =>
      have hpaths : Quiet (pattern.paths : StateM σ _) := Quiet.searchIn _ _ _ _
      simp only [hpaths.run_bind]
      rw [run_bind_eq, Quiet.filterM fun path => Quiet.isFile path]
      refine ⟨rfl, fun found hfound path hpath => ?_⟩
      cases hfound
      simpa [isFile_run] using (List.mem_filter.mp hpath).2

/-- What several names or patterns stand for is found without changing anything, and all of
it are files. -/
theorem matchingAll_run (patterns : List String) (s : σ) :
    ((matchingAll patterns : StateM σ _).run s).2 = s ∧
      ∀ found, ((matchingAll patterns : StateM σ _).run s).1 = .ok found →
        AllFiles s found := by
  induction patterns with
  | nil =>
    refine ⟨rfl, fun found hfound path hpath => ?_⟩
    cases hfound
    cases hpath
  | cons text patterns ih =>
    obtain ⟨hquiet, hfiles⟩ := matching_run text s
    rw [matchingAll, run_bind_eq, hquiet]
    cases hfirst : ((matching text : StateM σ _).run s).1 with
    | error invalid =>
      refine ⟨rfl, fun found hfound => ?_⟩
      cases hfound
    | ok first =>
      refine ⟨ih.1, fun found hfound path hpath => ?_⟩
      obtain ⟨others, hothers, rfl⟩ := ok_of_map hfound
      rcases List.mem_append.mp hpath with hpath | hpath
      · exact hfiles first hfirst path hpath
      · exact ih.2 others hothers path hpath

/-- Finding files leaves the storage as it was, and all that is found are files. -/
theorem discover_quiet (patterns : List String) (s : σ) :
    ((discover patterns : StateM σ _).run s).2 = s ∧
      ∀ found, ((discover patterns : StateM σ _).run s).1 = .ok found → AllFiles s found := by
  rw [discover_run]
  refine ⟨(matchingAll_run patterns s).1, fun found hfound path hpath => ?_⟩
  obtain ⟨paths, hpaths, rfl⟩ := ok_of_map hfound
  exact (matchingAll_run patterns s).2 paths hpaths path (Path.mem_of_mem_sorted hpath)

end Bundle

end Phrasebook

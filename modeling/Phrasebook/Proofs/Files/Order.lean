import Mathlib.Data.List.Sort
import Phrasebook.Files.Path

/-!
# Paths in order

The order of paths is that of their parts, and a sorted list of paths has each path once.

Main results:

- Theorem `Part.order_eq`: parts are in order by kind and then by name.
- Theorem `Path.ascending_sorted`: sorting paths leaves each one below all that follow.
- Theorem `Path.mem_of_mem_sorted`: sorting paths adds none.
- Theorem `Path.sorted_of_ascending`: sorting changes nothing a second time.
-/

namespace Phrasebook

/-! ## The order of parts -/

/-- The name in a part; nothing if it has none. -/
def Part.label : Part → String
  | .name text => text
  | _ => ""

/-- Parts are in order by kind, and those of a kind by name. -/
theorem Part.order_eq : Part.order = compareLex (compareOn Part.rank) (compareOn Part.label) := by
  funext a b
  cases a <;> cases b <;> rfl

instance : Std.TransCmp Part.order := by
  rw [Part.order_eq]
  infer_instance

instance : Std.LawfulEqCmp Part.order where
  eq_of_compare {a b} hsame := by
    rw [Part.order_eq, compareLex_eq_eq] at hsame
    obtain ⟨hrank, hlabel⟩ := hsame
    have hrank : a.rank = b.rank := Std.LawfulEqCmp.eq_of_compare hrank
    have hlabel : a.label = b.label := Std.LawfulEqCmp.eq_of_compare hlabel
    cases a <;> cases b <;> simp_all [Part.rank, Part.label]

namespace Path

/-! ## The order of paths -/

instance : Std.TransCmp Path.order where
  eq_swap {a b} :=
    (Std.OrientedCmp.eq_swap : List.compareLex Part.order a.parts b.parts = _)
  isLE_trans {a _ c} hab hbc :=
    (Std.TransCmp.isLE_trans hab hbc : (List.compareLex Part.order a.parts c.parts).isLE)

/-- Paths that come neither before nor after each other have the same parts. -/
theorem parts_eq_of_order {a b : Path} (hsame : a.order b = .eq) : a.parts = b.parts :=
  Std.LawfulEqCmp.eq_of_compare hsame

/-- A path that comes before another one has other parts. -/
theorem parts_ne_of_order {a b : Path} (hless : a.order b = .lt) : a.parts ≠ b.parts := by
  intro hsame
  have hself : a.order b = .eq := by
    unfold order
    rw [hsame]
    exact Std.ReflCmp.compare_self
  rw [hself] at hless
  contradiction

/-- A path that comes not after another one with other parts comes before it. -/
theorem order_eq_lt {a b : Path} (hle : (a.order b).isLE) (hne : a.parts ≠ b.parts) :
    a.order b = .lt := by
  cases hab : a.order b with
  | lt => rfl
  | eq => exact absurd (parts_eq_of_order hab) hne
  | gt => simp [hab] at hle

/-! ## Sorted lists -/

/-- Each path of a list comes before all that follow. -/
def Ascending (paths : List Path) : Prop :=
  paths.Pairwise fun a b => a.order b = .lt

/-- No two paths of an ascending list have the same parts. -/
theorem Ascending.nodup_parts {paths : List Path} (hpaths : Ascending paths) :
    (paths.map parts).Nodup :=
  List.pairwise_map.mpr (hpaths.imp parts_ne_of_order)

/-- What is left when repeats are dropped was in the list. -/
theorem dropRepeatsOf_sublist (last : Path) (paths : List Path) :
    (dropRepeatsOf last paths).Sublist paths := by
  induction paths generalizing last with
  | nil => exact .slnil
  | cons path rest ih =>
    rw [dropRepeatsOf]
    split
    · exact (ih last).cons path
    · exact (ih path).cons_cons path

/-- Dropping repeats from a list in order, all of it not before `last`, leaves an ascending
list after `last`. -/
theorem ascending_dropRepeatsOf {last : Path} {paths : List Path}
    (hlast : ∀ path ∈ paths, (last.order path).isLE)
    (hpaths : paths.Pairwise fun a b => (a.order b).isLE) :
    Ascending (last :: dropRepeatsOf last paths) := by
  induction paths generalizing last with
  | nil => exact List.pairwise_singleton _ _
  | cons path rest ih =>
    rw [List.forall_mem_cons] at hlast
    rw [List.pairwise_cons] at hpaths
    rw [dropRepeatsOf]
    split
    · exact ih hlast.2 hpaths.2
    · rename_i hne
      have hless := order_eq_lt hlast.1 (Ne.symm hne)
      have hrest := ih hpaths.1 hpaths.2
      refine List.pairwise_cons.mpr ⟨?_, hrest⟩
      intro other hother
      rcases List.mem_cons.mp hother with rfl | hother
      · exact hless
      · exact Std.TransCmp.lt_trans hless ((List.pairwise_cons.mp hrest).1 other hother)

/-- Sorting paths leaves each one below all that follow. -/
theorem ascending_sorted (paths : List Path) : Ascending (sorted paths) := by
  have horder : (paths.mergeSort fun a b => (a.order b).isLE).Pairwise
      fun a b => (a.order b).isLE := by
    refine List.pairwise_mergeSort (fun a b c => Std.TransCmp.isLE_trans) ?_ paths
    intro a b
    have hswap : b.order a = (a.order b).swap := Std.OrientedCmp.eq_swap
    rw [hswap]
    cases a.order b <;> rfl
  unfold sorted
  cases hsorted : paths.mergeSort fun a b => (a.order b).isLE with
  | nil => exact .nil
  | cons first rest =>
    rw [hsorted, List.pairwise_cons] at horder
    exact ascending_dropRepeatsOf horder.1 horder.2

/-- The paths of a sorted list are among those that were sorted. -/
theorem mem_of_mem_sorted {path : Path} {paths : List Path} (hpath : path ∈ sorted paths) :
    path ∈ paths := by
  have hmem : path ∈ paths.mergeSort (fun a b => (a.order b).isLE) ↔ path ∈ paths :=
    List.mem_mergeSort
  rw [← hmem]
  unfold sorted at hpath
  cases hsorted : paths.mergeSort fun a b => (a.order b).isLE with
  | nil => simp [hsorted, dropRepeats] at hpath
  | cons first rest =>
    rw [hsorted] at hpath
    exact ((dropRepeatsOf_sublist first rest).cons_cons first).subset hpath

/-- Dropping repeats leaves an ascending list as it is. -/
theorem dropRepeatsOf_of_ascending {last : Path} {paths : List Path}
    (hpaths : Ascending (last :: paths)) : dropRepeatsOf last paths = paths := by
  induction paths generalizing last with
  | nil => rfl
  | cons path rest ih =>
    obtain ⟨hlast, hrest⟩ := List.pairwise_cons.mp hpaths
    have hne := parts_ne_of_order (hlast path List.mem_cons_self)
    rw [dropRepeatsOf, if_neg (Ne.symm hne), ih hrest]

/-- Sorting leaves an ascending list as it is. -/
theorem sorted_of_ascending {paths : List Path} (hpaths : Ascending paths) :
    sorted paths = paths := by
  have horder : paths.Pairwise fun a b => (a.order b).isLE :=
    hpaths.imp fun hless => by rw [hless]; rfl
  rw [sorted, List.mergeSort_of_pairwise horder]
  cases paths with
  | nil => rfl
  | cons first rest => rw [dropRepeats, dropRepeatsOf_of_ascending hpaths]

end Path

end Phrasebook

import Phrasebook.Proofs.Template.Segments

/-!
# Cases on their own

A case of a template is a template itself.  It is not cut again: every bar that was
left in it stands in a token or behind a backslash that is in it as well, because
white space is all that is dropped at its ends.

Main results:

- Definition `Uncut`: none of some atoms is a bar to cut at.
- Theorem `uncut_cutAtoms`: what cutting leaves is uncut, and `Uncut.trimAtoms` keeps
  it so without the white space at its ends.
- Theorem `split_eq_map_cutAtoms`: the cases of a template by its decomposition.
- Theorem `split_of_mem_split`: a case of a template has no other case than itself.
-/

namespace Phrasebook.Template

open Text

/-! ## Atoms without a bar to cut at -/

/-- None of these atoms is a bar to cut at; `previous` is the atom in front of them. -/
def Uncut (previous : Option Atom) : List Atom → Prop
  | [] => True
  | atom :: atoms =>
      (atom = .char '|' → previous = some (.char '\\')) ∧ Uncut (some atom) atoms

/-- Atoms without a bar to cut at stay together. -/
theorem Uncut.cutAtoms_eq {previous : Option Atom} {atoms : List Atom}
    (hatoms : Uncut previous atoms) : cutAtoms previous atoms = [atoms] := by
  induction atoms generalizing previous with
  | nil => rfl
  | cons atom atoms ih =>
    obtain ⟨hbar, hrest⟩ := hatoms
    rw [cutAtoms, if_neg (fun hcut => hcut.2 (hbar hcut.1)), ih hrest]
    rfl

/-- Only a backslash in front keeps a bar from being cut at. -/
theorem Uncut.of_ne {previous other : Option Atom} {atoms : List Atom}
    (hatoms : Uncut previous atoms) (hprevious : previous ≠ some (.char '\\')) :
    Uncut other atoms := by
  cases atoms with
  | nil => trivial
  | cons atom atoms => exact ⟨fun hbar => absurd (hatoms.1 hbar) hprevious, hatoms.2⟩

/-- What cutting leaves is uncut.  The atom in front of all counts for the first case
only: in front of the others stands the bar that was cut at. -/
theorem uncut_cutAtoms (previous : Option Atom) (atoms : List Atom) :
    ∃ first others, cutAtoms previous atoms = first :: others ∧ Uncut previous first ∧
      ∀ segment ∈ others, Uncut none segment := by
  induction atoms generalizing previous with
  | nil => exact ⟨[], [], rfl, trivial, by simp⟩
  | cons atom atoms ih =>
    obtain ⟨first, others, hcut, hfirst, hothers⟩ := ih (some atom)
    rw [cutAtoms, hcut]
    split
    · rename_i hbar
      refine ⟨[], first :: others, rfl, trivial, ?_⟩
      rw [List.forall_mem_cons]
      exact ⟨hfirst.of_ne (by simp [hbar.1]), hothers⟩
    · rename_i hbar
      refine ⟨atom :: first, others, rfl, ⟨fun hatom => ?_, hfirst⟩, hothers⟩
      by_contra hprevious
      exact hbar ⟨hatom, hprevious⟩

/-- Each case of a decomposition is uncut. -/
theorem uncut_of_mem_cutAtoms {atoms segment : List Atom}
    (hsegment : segment ∈ cutAtoms none atoms) : Uncut none segment := by
  obtain ⟨first, others, hcut, hfirst, hothers⟩ := uncut_cutAtoms none atoms
  rw [hcut] at hsegment
  rcases List.mem_cons.mp hsegment with rfl | hother
  · exact hfirst
  · exact hothers segment hother

/-- The front of uncut atoms is uncut. -/
theorem Uncut.of_append_left {previous : Option Atom} {front back : List Atom}
    (hatoms : Uncut previous (front ++ back)) : Uncut previous front := by
  induction front generalizing previous with
  | nil => trivial
  | cons atom front ih => exact ⟨hatoms.1, ih hatoms.2⟩

/-- White space at the front escapes nothing. -/
theorem Uncut.dropWhile_isBlank {atoms : List Atom} (hatoms : Uncut none atoms) :
    Uncut none (atoms.dropWhile Atom.isBlank) := by
  induction atoms with
  | nil => trivial
  | cons atom atoms ih =>
    rw [List.dropWhile_cons]
    split
    · rename_i hblank
      refine ih (hatoms.2.of_ne ?_)
      rintro ⟨⟩
      exact absurd hblank (by decide)
    · exact hatoms

/-- Without the white space at their ends uncut atoms are uncut. -/
theorem Uncut.trimAtoms {atoms : List Atom} (hatoms : Uncut none atoms) :
    Uncut none (trimAtoms atoms) := by
  have hfront := hatoms.dropWhile_isBlank
  obtain ⟨back, hback⟩ := List.rdropWhile_prefix Atom.isBlank (atoms.dropWhile Atom.isBlank)
  rw [← hback] at hfront
  exact hfront.of_append_left

/-! ## Cases -/

/-- The cases of a template are those of its decomposition. -/
theorem split_eq_map_cutAtoms {atoms : List Atom} (hatoms : Marked atoms) :
    split (String.ofList (textOf atoms)) =
      (cutAtoms none atoms).map fun segment => String.ofList (textOf (trimAtoms segment)) := by
  have hcut : cut false (textOf atoms) = (cutAtoms none atoms).map textOf :=
    cut_textOf hatoms none
  simp only [split, String.toList_ofList, hcut, List.map_map, Function.comp_def, trim_textOf]

/-- A case of a template comes from a part of its decomposition that is uncut. -/
theorem exists_uncut_of_mem_split {template segment : String}
    (hsegment : segment ∈ split template) :
    ∃ atoms, Marked atoms ∧ Uncut none atoms ∧ segment = String.ofList (textOf atoms) := by
  obtain ⟨atoms, htext, hatoms⟩ := exists_marked template.toList
  rw [← String.ofList_toList (s := template), ← htext, split_eq_map_cutAtoms hatoms] at hsegment
  obtain ⟨part, hpart, rfl⟩ := List.mem_map.mp hsegment
  have hstretch := (trimAtoms_isInfix part).trans (isInfix_of_mem_cutAtoms hpart)
  exact ⟨trimAtoms part, hatoms.of_isInfix hstretch, (uncut_of_mem_cutAtoms hpart).trimAtoms,
    rfl⟩

/-- A case has no white space at its ends. -/
theorem trim_of_mem_split {template segment : String} (hsegment : segment ∈ split template) :
    trim segment.toList = segment.toList := by
  obtain ⟨part, -, rfl⟩ := List.mem_map.mp hsegment
  rw [String.toList_ofList, trim_trim]

/-- A case has no other case than itself. -/
theorem split_of_mem_split {template segment : String} (hsegment : segment ∈ split template) :
    split segment = [segment] := by
  have htrimmed := trim_of_mem_split hsegment
  obtain ⟨atoms, hatoms, huncut, rfl⟩ := exists_uncut_of_mem_split hsegment
  rw [String.toList_ofList, trim_textOf] at htrimmed
  rw [split_eq_map_cutAtoms hatoms, huncut.cutAtoms_eq, List.map_singleton, htrimmed]

end Phrasebook.Template

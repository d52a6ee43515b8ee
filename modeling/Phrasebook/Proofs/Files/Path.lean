import Phrasebook.Files.Path
import Phrasebook.Proofs.Locale

/-!
# Parts of paths

A path is text, and its parts tell what it names.  The texts that are made when a name
is joined to a directory, or put in the place of another, have the parts that one
expects, however the slashes and points in them are written.

Main results:

- Theorem `parts_join`: joining a name to a directory adds it to the parts.
- Theorem `exists_parent`: the directory that a name is in has the other parts of the path.
- Theorem `parts_withFileName`: another name stands in the place of the last part.
-/

namespace Phrasebook

open Text

/-! ## Pieces -/

/-- Only a text that is empty or starts with a separator has an empty first piece. -/
theorem Text.eq_nil_of_head?_splitOn {separator : Char} {text : List Char}
    (hfirst : (text.splitOn separator).head? = some []) (hhead : text.head? ≠ some separator) :
    text = [] := by
  cases text with
  | nil => rfl
  | cons c text =>
    have hne : c ≠ separator := by simpa using hhead
    obtain ⟨first, others, hpieces⟩ :=
      List.exists_cons_of_ne_nil (List.splitOn_ne_nil separator text)
    rw [List.splitOn_cons_eq_if_modifyHead, if_neg (by simpa using hne), hpieces] at hfirst
    simp at hfirst

/-! ## Names -/

/-- A text is the name of a part: it is one piece of a path, and counts as a name. -/
structure IsName (name : String) : Prop where
  noSlash : '/' ∉ name.toList
  part : Part.ofPiece? name.toList = some (.name name)

/-- A piece that counts as a name is that name. -/
theorem Part.ofPiece?_eq_name_iff {piece : List Char} {name : String} :
    ofPiece? piece = some (.name name) ↔
      piece = name.toList ∧ piece ≠ [] ∧ piece ≠ ['.'] ∧ piece ≠ ['.', '.'] := by
  unfold ofPiece?
  split
  · simp
  · simp
  · simp
  · rename_i hnil hhere hup
    simp only [Option.some.injEq, Part.name.injEq, ne_eq]
    constructor
    · rintro rfl
      exact ⟨by simp, hnil, hhere, hup⟩
    · rintro ⟨rfl, -⟩
      simp

/-- No name is empty. -/
theorem IsName.ne_empty {name : String} (hname : IsName name) : name ≠ "" := by
  rintro rfl
  exact absurd rfl (Part.ofPiece?_eq_name_iff.mp hname.part).2.1

/-- A name does not start at the root. -/
theorem IsName.head?_ne {name : String} (hname : IsName name) :
    name.toList.head? ≠ some '/' := by
  intro hhead
  exact hname.noSlash (List.mem_of_head? hhead)

namespace Path

/-! ## Parts -/

/-- The part at the front of a text that is not like the others. -/
def leadOf (text : List Char) : List Part :=
  if text.head? = some '/' then [.root]
  else if (text.splitOn '/').head? = some ['.'] then [.here]
  else []

/-- The parts of a path by its text. -/
theorem parts_eq (path : Path) :
    path.parts =
      leadOf path.text.toList ++
        (path.text.toList.splitOn '/').filterMap Part.ofPiece? := by
  simp [parts, lead, leadOf, isRooted]

/-- What follows a slash does not change the front of a text. -/
theorem leadOf_append {left : List Char} (hleft : left ≠ []) (right : List Char) :
    leadOf (left ++ '/' :: right) = leadOf left := by
  obtain ⟨c, rest, rfl⟩ := List.exists_cons_of_ne_nil hleft
  obtain ⟨first, others, hpieces⟩ :=
    List.exists_cons_of_ne_nil (List.splitOn_ne_nil '/' (c :: rest))
  rw [leadOf, leadOf, List.splitOn_append_cons_self, hpieces]
  rfl

/-- A name on its own is its only part. -/
theorem parts_name {name : String} (hname : IsName name) :
    parts ⟨name⟩ = [.name name] := by
  have hone := List.splitOn_eq_singleton hname.noSlash
  have hpoint := (Part.ofPiece?_eq_name_iff.mp hname.part).2.2.1
  rw [parts_eq, leadOf, if_neg hname.head?_ne, hone, if_neg (by simpa using hpoint)]
  simp [hname.part]

/-- A slash and a name behind a text add the name to its parts. -/
theorem parts_append_slash {left name : String} (hleft : left ≠ "")
    (hname : IsName name) :
    parts ⟨left ++ "/" ++ name⟩ = parts ⟨left⟩ ++ [.name name] := by
  have hchars : (left ++ "/" ++ name).toList = left.toList ++ '/' :: name.toList := by
    simp
  rw [parts_eq, parts_eq, hchars, leadOf_append (by simpa using hleft), List.splitOn_append_cons_self,
    List.splitOn_eq_singleton hname.noSlash]
  simp [hname.part]

/-- A slash at the end of a text does not count. -/
theorem parts_append_slash_end {left : String} (hleft : left ≠ "") :
    parts ⟨left ++ "/"⟩ = parts ⟨left⟩ := by
  have hchars : (left ++ "/").toList = left.toList ++ '/' :: [] := by
    simp
  rw [parts_eq, parts_eq, hchars, leadOf_append (by simpa using hleft), List.splitOn_append_cons_self]
  simp [Part.ofPiece?]

/-- Joining a name to a directory adds it to the parts. -/
theorem parts_join (directory : Path) {name : String} (hname : IsName name) :
    (directory.join name).parts = directory.parts ++ [.name name] := by
  obtain ⟨text⟩ := directory
  unfold join
  split
  · rename_i hlast
    have hempty : text = "" := by simpa using hlast
    rw [hempty, String.empty_append, parts_name hname]
    rfl
  · rename_i hlast
    obtain ⟨front, hfront⟩ := List.getLast?_eq_some_iff.mp hlast
    have htext : text = String.ofList front ++ "/" := by
      rw [← String.toList_inj]
      simpa using hfront
    rw [htext]
    by_cases hroot : front = []
    · subst hroot
      have hone := List.splitOn_eq_singleton hname.noSlash
      have hempty : Part.ofPiece? [] = none := rfl
      rw [parts_eq, parts_eq]
      simp [leadOf, List.splitOn_cons_eq_if_modifyHead, hone, hname.part, hempty]
    · have hne : String.ofList front ≠ "" := by simpa using hroot
      rw [parts_append_slash hne hname, parts_append_slash_end hne]
  · rename_i c hslash hlast
    have hne : text ≠ "" := by
      rintro rfl
      simp at hlast
    exact parts_append_slash hne hname

/-! ## Names at the end -/

/-- A name in the parts of a path is a name. -/
theorem isName_of_mem_parts {path : Path} {name : String} (hname : .name name ∈ path.parts) :
    IsName name := by
  have hlead : Part.name name ∉ leadOf path.text.toList := by
    unfold leadOf
    split <;> try split
    all_goals simp
  rw [parts_eq, List.mem_append, or_iff_right hlead] at hname
  obtain ⟨piece, hpiece, hpart⟩ := List.mem_filterMap.mp hname
  obtain rfl := (Part.ofPiece?_eq_name_iff.mp hpart).1
  exact ⟨notMem_of_mem_splitOn hpiece, hpart⟩

/-- A name at the end of a path is a name. -/
theorem isName_of_parts {path : Path} {above : List Part} {name : String}
    (hparts : path.parts = above ++ [.name name]) : IsName name := by
  have hmem : .name name ∈ path.parts := by simp [hparts]
  exact isName_of_mem_parts hmem

/-- The name of a file is the last part of its path. -/
theorem fileName?_of_parts {path : Path} {above : List Part} {name : String}
    (hparts : path.parts = above ++ [.name name]) : path.fileName? = some name := by
  simp [fileName?, hparts]

/-- A path with a name at its end is this name below other parts. -/
theorem exists_above_of_fileName? {path : Path} {name : String}
    (hname : path.fileName? = some name) : ∃ above, path.parts = above ++ [.name name] := by
  unfold fileName? at hname
  split at hname
  · rename_i text hlast
    obtain rfl := Option.some.inj hname
    exact ⟨_, (List.dropLast_append_getLast? _ hlast).symm⟩
  · cases hname

/-- The stem of a path is that of its last part. -/
theorem stem_of_parts {path : Path} {above : List Part} {name : String}
    (hparts : path.parts = above ++ [.name name]) : path.stem = stemOf name := by
  simp [stem, fileName?_of_parts hparts]

/-- The stem of a name is not empty. -/
theorem stemOf_ne_empty {name : String} (hname : name ≠ "") : stemOf name ≠ "" := by
  unfold stemOf
  cases hcut : beforeLast? '.' name.toList with
  | none => simpa using hname
  | some front =>
    obtain ⟨hfront, -⟩ := beforeLast?_eq_some_iff.mp hcut
    simpa using hfront

/-- The stem of a name is at its front. -/
theorem stemOf_prefix (name : String) : (stemOf name).toList <+: name.toList := by
  unfold stemOf
  cases hcut : beforeLast? '.' name.toList with
  | none => simp
  | some front =>
    obtain ⟨-, back, hname, -⟩ := beforeLast?_eq_some_iff.mp hcut
    rw [hname, Option.getD_some, String.toList_ofList]
    exact List.prefix_append front _

/-! ## Ancestors -/

/-- The parts of the path that these pieces are written as, the first one first. -/
def partsOf (rooted : Bool) (pieces : List (List Char)) : List Part :=
  (if rooted then [.root] else if pieces.head? = some ['.'] then [.here] else []) ++
    pieces.filterMap Part.ofPiece?

/-- Pieces that a path can be written with, the last one first: they have no slashes, and
a path that is not rooted does not start with a slash. -/
structure Written (rooted : Bool) (pieces : List (List Char)) : Prop where
  noSlash : ∀ piece ∈ pieces, '/' ∉ piece
  front : rooted = false → pieces.getLast? = some [] → pieces = [[]]

/-- Without the last of them, pieces can still be written. -/
theorem Written.tail {rooted : Bool} {piece : List Char} {before : List (List Char)}
    (hpieces : Written rooted (piece :: before)) : Written rooted before where
  noSlash other hother := hpieces.noSlash other (List.mem_cons_of_mem _ hother)
  front hrooted hlast := by
    have hsome : before ≠ [] := by
      rintro rfl
      cases hlast
    have hall := hpieces.front hrooted (by rwa [List.getLast?_cons_of_ne_nil hsome])
    exact absurd (List.cons.inj hall).2 hsome

/-- A path that is not rooted does not start with a slash. -/
theorem Written.head?_ne {pieces : List (List Char)} (hpieces : Written false pieces) :
    (['/'].intercalate pieces.reverse).head? ≠ some '/' := by
  intro hhead
  cases hreverse : pieces.reverse with
  | nil => simp [hreverse] at hhead
  | cons first others =>
    have hlast : pieces.getLast? = some first := by
      rw [List.getLast?_eq_head?_reverse, hreverse]
      rfl
    have hnoSlash := hpieces.noSlash first (List.mem_of_getLast? hlast)
    rw [hreverse] at hhead
    cases first with
    | nil =>
      have hothers : others = [] := by simpa [hpieces.front rfl hlast] using hreverse
      simp [hothers] at hhead
    | cons c first =>
      have hc : c = '/' := by
        cases others with
        | nil => simpa using hhead
        | cons second others => simpa [List.intercalate_cons_cons] using hhead
      exact hnoSlash (hc ▸ List.mem_cons_self)

/-- A path has the parts of the pieces that it is written with. -/
theorem parts_ofPieces {rooted : Bool} {pieces : List (List Char)}
    (hpieces : Written rooted pieces) :
    (ofPieces rooted pieces).parts = partsOf rooted pieces.reverse := by
  have hnoSlash : ∀ piece ∈ pieces.reverse, '/' ∉ piece := by
    simpa using hpieces.noSlash
  by_cases hnone : pieces = []
  · subst hnone
    cases rooted <;> rfl
  have hsplit := List.splitOn_intercalate '/' hnoSlash (by simpa using hnone)
  rw [parts_eq, ofPieces, String.toList_ofList, partsOf]
  cases rooted with
  | true =>
    have hempty : Part.ofPiece? [] = none := rfl
    simp [leadOf, List.splitOn_cons_eq_if_modifyHead, hsplit, List.filterMap_cons_none hempty]
  | false =>
    have hhead := hpieces.head?_ne
    simp only [Bool.false_eq_true, if_false, List.nil_append, leadOf, if_neg hhead, hsplit]

/-- One more piece adds the part that it stands for: a point at the very front stands for
the directory one is in. -/
theorem partsOf_concat (rooted : Bool) (front : List (List Char)) (piece : List Char) :
    partsOf rooted (front ++ [piece]) = partsOf rooted front ++
      if rooted = false ∧ front = [] ∧ piece = ['.'] then [.here]
      else (Part.ofPiece? piece).toList := by
  have hpoint : Part.ofPiece? ['.'] = none := rfl
  cases front with
  | nil =>
    by_cases hpiece : piece = ['.']
    · subst hpiece
      cases rooted <;> simp [partsOf, hpoint]
    · cases rooted <;> cases hpart : Part.ofPiece? piece <;> simp [partsOf, hpiece, hpart]
  | cons first front =>
    have hhead : ((first :: front) ++ [piece]).head? = (first :: front).head? := rfl
    rw [partsOf, partsOf, hhead, List.filterMap_append, List.append_assoc]
    cases hpart : Part.ofPiece? piece <;> simp [hpart]

/-- A piece that does not count adds no part. -/
theorem partsOf_of_not_counts {rooted : Bool} {piece : List Char} {before : List (List Char)}
    (hcounts : ¬ counts rooted piece before) :
    partsOf rooted (piece :: before).reverse = partsOf rooted before.reverse := by
  simp only [counts, Bool.not_eq_true, Bool.or_eq_false_iff, Option.isSome_eq_false_iff,
    Option.isNone_iff_eq_none] at hcounts
  rw [List.reverse_cons, partsOf_concat, hcounts.1]
  simpa using hcounts.2

/-- A name that pieces end with is in a piece that counts, and the others are before it. -/
theorem partsOf_of_counts {rooted : Bool} {piece : List Char} {before : List (List Char)}
    (hcounts : counts rooted piece before) {above : List Part} {name : String}
    (hname : partsOf rooted (piece :: before).reverse = above ++ [.name name]) :
    partsOf rooted before.reverse = above := by
  rw [List.reverse_cons, partsOf_concat] at hname
  split at hname
  · simp at hname
  · rename_i hhere
    cases hpart : Part.ofPiece? piece with
    | none => simp_all [counts]
    | some part =>
      rw [hpart] at hname
      exact (List.append_inj' hname rfl).1

/-- The first of the paths that are left has the parts of all pieces. -/
theorem exists_shortened {rooted : Bool} {pieces : List (List Char)}
    (hpieces : Written rooted pieces) :
    ∃ first others, shortened rooted pieces = first :: others ∧
      first.parts = partsOf rooted pieces.reverse := by
  induction pieces with
  | nil => exact ⟨_, _, rfl, parts_ofPieces hpieces⟩
  | cons piece before ih =>
    by_cases hcounts : counts rooted piece before
    · exact ⟨_, _, by rw [shortened, if_pos hcounts], parts_ofPieces hpieces⟩
    · obtain ⟨first, others, hshort, hparts⟩ := ih hpieces.tail
      refine ⟨first, others, by rw [shortened, if_neg hcounts, hshort], ?_⟩
      rw [hparts, partsOf_of_not_counts hcounts]

/-- If the last part is a name, the second of the paths that are left has the other
parts. -/
theorem exists_shortened_of_name {rooted : Bool} {pieces : List (List Char)}
    (hpieces : Written rooted pieces) {above : List Part} {name : String}
    (hname : partsOf rooted pieces.reverse = above ++ [.name name]) :
    ∃ first second others, shortened rooted pieces = first :: second :: others ∧
      second.parts = above := by
  induction pieces with
  | nil =>
    have hlast := congrArg List.getLast? hname
    cases rooted <;> simp [partsOf] at hlast
  | cons piece before ih =>
    by_cases hcounts : counts rooted piece before
    · obtain ⟨second, others, hshort, hparts⟩ := exists_shortened hpieces.tail
      refine ⟨_, second, others, by rw [shortened, if_pos hcounts, hshort], ?_⟩
      rw [hparts, partsOf_of_counts hcounts hname]
    · rw [partsOf_of_not_counts hcounts] at hname
      rw [shortened, if_neg hcounts]
      exact ih hpieces.tail hname

/-- The pieces of a path are those between the slashes of its text, except for the slash at
the root. -/
theorem exists_pieces (path : Path) :
    ∃ pieces, Written path.isRooted pieces ∧ path.ancestors = shortened path.isRooted pieces ∧
      partsOf path.isRooted pieces.reverse = path.parts := by
  refine ⟨_, ?_, rfl, ?_⟩
  · constructor
    · intro piece hpiece
      exact notMem_of_mem_splitOn (List.mem_reverse.mp hpiece)
    · intro hrooted hlast
      rw [hrooted] at hlast ⊢
      rw [List.getLast?_reverse] at hlast
      have hunrooted : path.text.toList.head? ≠ some '/' := by
        simpa [isRooted] using hrooted
      simp only [Bool.false_eq_true, if_false] at hlast ⊢
      rw [eq_nil_of_head?_splitOn hlast hunrooted]
      rfl
  · rw [List.reverse_reverse, parts_eq, partsOf]
    by_cases hrooted : path.text.toList.head? = some '/'
    · obtain ⟨body, htext⟩ := List.head?_eq_some_iff.mp hrooted
      have hempty : Part.ofPiece? [] = none := rfl
      simp [isRooted, htext, leadOf, List.splitOn_cons_eq_if_modifyHead, List.filterMap_cons_none hempty]
    · simp [isRooted, hrooted, leadOf]

/-- The first ancestor of a path is the path itself, written with its parts. -/
theorem exists_ancestors (path : Path) :
    ∃ first others, path.ancestors = first :: others ∧ first.parts = path.parts := by
  obtain ⟨pieces, hpieces, hancestors, hparts⟩ := path.exists_pieces
  rw [hancestors, ← hparts]
  exact exists_shortened hpieces

/-- The directory that a name is in has the other parts of the path. -/
theorem exists_parent {path : Path} {above : List Part} {name : String}
    (hparts : path.parts = above ++ [.name name]) :
    ∃ parent, path.parent? = some parent ∧ parent.parts = above := by
  obtain ⟨pieces, hpieces, hancestors, hpieceParts⟩ := path.exists_pieces
  obtain ⟨first, second, others, hshort, hsecond⟩ :=
    exists_shortened_of_name hpieces (hpieceParts.trans hparts)
  exact ⟨second, by rw [parent?, hancestors, hshort]; rfl, hsecond⟩

/-- Another name stands in the place of the last part. -/
theorem parts_withFileName {path : Path} {above : List Part} {old new : String}
    (hparts : path.parts = above ++ [.name old]) (hnew : IsName new) :
    (path.withFileName new).parts = above ++ [.name new] := by
  obtain ⟨parent, hparent, hparentParts⟩ := exists_parent hparts
  rw [withFileName, fileName?_of_parts hparts, hparent]
  exact (parts_join parent hnew).trans (by rw [hparentParts])

end Path

end Phrasebook

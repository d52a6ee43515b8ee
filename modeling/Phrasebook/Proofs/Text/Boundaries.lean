import Phrasebook.Text.Position

/-!
# Boundaries between characters

A place in a text is usable when no character of the text is split there.  The library
says which places these are, for the bytes of a string; here they are the places
between two parts of a list of characters.

Main results:

- Theorem `isValid_ofList_iff`: a place is a boundary when the text is made of two
  parts and the first of them ends there.
- Theorem `isValid_append_iff`: text in front moves the boundaries of what follows.
- Theorem `takeBytes_eq_none_iff`: bytes cannot be taken exactly when there are as many
  of them and they end inside a character.
- Theorem `eq_of_takeBytes`: bytes that were taken are the front of the text.
-/

namespace Phrasebook.Text

/-! ## Bytes of lists and of strings -/

/-- The bytes of a list of characters are those of its string. -/
theorem utf8ByteSize_ofList (s : List Char) :
    (String.ofList s).utf8ByteSize = byteLength s := by
  induction s with
  | nil => rfl
  | cons c s ih =>
    rw [String.ofList_cons, String.utf8ByteSize_append, String.utf8ByteSize_singleton, ih,
      byteLength_cons]

/-- The bytes of a string are those of its characters. -/
theorem byteLength_toList (s : String) : byteLength s.toList = s.utf8ByteSize := by
  rw [← utf8ByteSize_ofList, String.ofList_toList]

/-! ## Boundaries -/

/-- A place is a boundary when the text is made of two parts and the first of them ends
there. -/
theorem isValid_ofList_iff {s : List Char} {count : Nat} :
    String.Pos.Raw.IsValid (String.ofList s) ⟨count⟩ ↔
      ∃ front back, s = front ++ back ∧ byteLength front = count := by
  rw [String.Pos.Raw.isValid_iff_exists_append]
  constructor
  · rintro ⟨front, back, hs, hcount⟩
    refine ⟨front.toList, back.toList, ?_, ?_⟩
    · rw [← String.toList_append, ← hs, String.toList_ofList]
    · rw [byteLength_toList, ← String.byteIdx_rawEndPos, ← hcount]
  · rintro ⟨front, back, rfl, rfl⟩
    refine ⟨String.ofList front, String.ofList back, String.ofList_append, ?_⟩
    rw [← utf8ByteSize_ofList]
    rfl

/-- Text in front moves the boundaries of what follows. -/
theorem isValid_append_iff (front s : String) (count : Nat) :
    String.Pos.Raw.IsValid (front ++ s) ⟨front.utf8ByteSize + count⟩ ↔
      String.Pos.Raw.IsValid s ⟨count⟩ := by
  -- A place is a boundary when the bytes behind it are text, and those are the same.
  have hbehind : (front ++ s).toByteArray.extract (front.utf8ByteSize + count)
      (front ++ s).utf8ByteSize = s.toByteArray.extract count s.utf8ByteSize := by
    rw [String.toByteArray_append, String.utf8ByteSize_append]
    exact ByteArray.extract_append_size_add
  rw [String.Pos.Raw.isValid_iff_isValidUTF8_extract_utf8ByteSize,
    String.Pos.Raw.isValid_iff_isValidUTF8_extract_utf8ByteSize, hbehind]
  simp [String.Pos.Raw.le_iff]

/-! ## Taking bytes -/

/-- Bytes cannot be taken exactly when there are as many of them and they end inside a
character. -/
theorem takeBytes_eq_none_iff {count : Nat} {s : List Char} :
    takeBytes count s = none ↔
      count ≤ byteLength s ∧ ¬String.Pos.Raw.IsValid (String.ofList s) ⟨count⟩ := by
  induction s generalizing count with
  | nil => simp [takeBytes]
  | cons c s ih =>
    cases count with
    | zero => simp [takeBytes]
    | succ count =>
      simp only [takeBytes, byteLength_cons]
      split
      · rename_i hfits
        have hvalid :=
          isValid_append_iff (String.singleton c) (String.ofList s) (count + 1 - c.utf8Size)
        rw [← String.ofList_cons, String.utf8ByteSize_singleton,
          Nat.add_sub_cancel' hfits] at hvalid
        rw [Option.map_eq_none_iff, ih, hvalid, Nat.sub_le_iff_le_add']
      · rename_i hfits
        simp only [true_iff]
        refine ⟨by omega, fun hvalid => ?_⟩
        obtain ⟨front, back, hs, hlength⟩ := isValid_ofList_iff.mp hvalid
        cases front with
        | nil => simp at hlength
        | cons first front =>
          rw [List.cons_append, List.cons.injEq] at hs
          rw [byteLength_cons, ← hs.1] at hlength
          omega

/-- As many bytes as a text has are that text. -/
theorem takeBytes_byteLength (taken rest : List Char) :
    takeBytes (byteLength taken) (taken ++ rest) = some (taken, rest) := by
  induction taken with
  | nil => cases rest <;> rfl
  | cons c taken ih =>
    obtain ⟨count, hcount⟩ : ∃ count, byteLength (c :: taken) = count + 1 :=
      ⟨byteLength (c :: taken) - 1, by
        have := Char.utf8Size_pos c
        rw [byteLength_cons]
        omega⟩
    have hfits : c.utf8Size ≤ count + 1 := by
      rw [← hcount, byteLength_cons]
      exact Nat.le_add_right _ _
    have hleft : count + 1 - c.utf8Size = byteLength taken := by
      rw [← hcount, byteLength_cons]
      exact Nat.add_sub_cancel_left ..
    simp only [hcount, List.cons_append, takeBytes, if_pos hfits, hleft, ih, Option.map_some]

/-- Bytes that were taken are the front of the text, as many as asked for unless the
text has no more. -/
theorem eq_of_takeBytes {count : Nat} {s taken rest : List Char}
    (hs : takeBytes count s = some (taken, rest)) :
    s = taken ++ rest ∧ (byteLength taken = count ∨ rest = []) := by
  induction s generalizing count taken with
  | nil =>
    simp only [takeBytes, Option.some.injEq, Prod.mk.injEq] at hs
    simp [← hs.1, ← hs.2]
  | cons c s ih =>
    cases count with
    | zero =>
      simp only [takeBytes, Option.some.injEq, Prod.mk.injEq] at hs
      simp [← hs.1, ← hs.2]
    | succ count =>
      simp only [takeBytes] at hs
      split at hs
      · rename_i hfits
        obtain ⟨⟨others, behind⟩, hread, heq⟩ := Option.map_eq_some_iff.mp hs
        simp only [Prod.mk.injEq] at heq
        obtain ⟨rfl, rfl⟩ := heq
        obtain ⟨rfl, hcount⟩ := ih hread
        refine ⟨rfl, hcount.imp (fun hcount => ?_) id⟩
        rw [byteLength_cons, hcount]
        omega
      · simp at hs

end Phrasebook.Text

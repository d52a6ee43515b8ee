import Mathlib.Data.List.Forall2
import Mathlib.Data.Nat.Digits.Defs
import Phrasebook.Proofs.Script.Functions
import Phrasebook.Proofs.Text.Boundaries
import Phrasebook.Proofs.Text.Longer

/-!
# Code points in template literals

Behind a backslash and the letter `u` a character is given by its code point in
hexadecimal digits: four of them, or any number of them in braces.  The form without
braces takes the next four bytes as they come and reads them as a number, and a number
may have a plus sign.

Main results:

- Definition `UnicodeEscape`: the texts that give a character by its code point.
- Theorem `readCodePoint_append`: each of them is read as that character, whatever
  follows.
- Theorem `exists_unicodeEscape`: nothing else is read where something follows.
-/

namespace Phrasebook.Script

open Text

variable {c : Char} {digits written s rest : List Char}

/-! ## Hexadecimal numerals -/

/-- A digit of the hexadecimal system, in either case, and its value. -/
def IsHexDigit (c : Char) (value : Nat) : Prop :=
  value < 16 ∧ c.toLower = Nat.digitChar value

/-- Digits that write a number in the hexadecimal system, the first one most
significant. -/
def HexNumeral (digits : List Char) (n : Nat) : Prop :=
  ∃ values, List.Forall₂ IsHexDigit digits values ∧ Nat.ofDigits 16 values.reverse = n

/-- Every digit is a character of ASCII. -/
theorem IsHexDigit.toNat_lt {value : Nat} (hdigit : IsHexDigit c value) : c.toNat < 128 := by
  have hlower : ∀ value < 16, (Nat.digitChar value).toNat < 128 := by decide
  obtain ⟨hvalue, hc⟩ := hdigit
  have hbound := hlower value hvalue
  rw [← hc] at hbound
  delta Char.toLower at hbound
  split at hbound
  · rename_i hupper
    have hlast : c.toNat ≤ 90 := hupper.2
    omega
  · exact hbound

theorem hexDigit?_of_ascii : ∀ code < 128, ∀ value < 16,
    hexDigit? (Char.ofNat code) = some value ↔
      (Char.ofNat code).toLower = Nat.digitChar value := by
  decide +kernel

/-- The reader knows the digits of the hexadecimal system and no others. -/
theorem hexDigit?_eq_some_iff {value : Nat} :
    hexDigit? c = some value ↔ IsHexDigit c value := by
  have hcode : Char.ofNat c.toNat = c := Char.ofNat_toNat c
  constructor
  · intro hread
    have hbounds : c.toNat < 128 ∧ value < 16 := by
      simp only [hexDigit?, Char.le_def, UInt32.le_iff_toNat_le] at hread
      change (if 48 ≤ c.toNat ∧ c.toNat ≤ 57 then some (c.toNat - 48)
        else if 97 ≤ c.toNat ∧ c.toNat ≤ 102 then some (c.toNat - 97 + 10)
        else if 65 ≤ c.toNat ∧ c.toNat ≤ 70 then some (c.toNat - 65 + 10)
        else none) = some value at hread
      grind
    refine ⟨hbounds.2, ?_⟩
    rw [← hcode] at hread ⊢
    exact (hexDigit?_of_ascii c.toNat hbounds.1 value hbounds.2).mp hread
  · intro hdigit
    have hread := (hexDigit?_of_ascii c.toNat hdigit.toNat_lt value hdigit.1).mpr
    rw [hcode] at hread
    exact hread hdigit.2

theorem mapM_hexDigit?_eq_some_iff {values : List Nat} :
    digits.mapM hexDigit? = some values ↔ List.Forall₂ IsHexDigit digits values := by
  induction digits generalizing values with
  | nil => simp [eq_comm]
  | cons c digits ih =>
    cases values with
    | nil => simp [List.mapM_cons, Option.bind_eq_some_iff]
    | cons value values =>
      simp [List.mapM_cons, Option.bind_eq_some_iff, hexDigit?_eq_some_iff, ih]

/-- The reader gives a run of digits the value that it writes. -/
theorem hexValue?_eq_some_iff {n : Nat} : hexValue? digits = some n ↔ HexNumeral digits n := by
  have hvalue : ∀ values : List Nat,
      values.foldl (fun value digit => 16 * value + digit) 0 =
        Nat.ofDigits 16 values.reverse := by
    intro values
    rw [Nat.ofDigits_eq_foldr, List.foldr_reverse]
    simp [Nat.add_comm]
  simp only [hexValue?, Option.map_eq_some_iff, mapM_hexDigit?_eq_some_iff, hvalue, HexNumeral]

theorem charOfCode?_eq_some_iff {n : Nat} : charOfCode? n = some c ↔ n = c.toNat := by
  constructor
  · intro hread
    by_cases hvalid : n.isValidChar
    · have hfound : charOfCode? n = some (Char.ofNatAux n hvalid) := dif_pos hvalid
      rw [← Option.some.inj (hfound.symm.trans hread)]
      rfl
    · have hnone : charOfCode? n = none := dif_neg hvalid
      rw [hnone] at hread
      cases hread
  · rintro rfl
    have hvalid : c.toNat.isValidChar := c.valid
    exact dif_pos hvalid

/-- A character is read from a numeral of its code point. -/
theorem charOfHex?_eq_some_iff :
    charOfHex? digits = some c ↔ digits ≠ [] ∧ HexNumeral digits c.toNat := by
  simp [charOfHex?, Option.bind_eq_some_iff, charOfCode?_eq_some_iff, hexValue?_eq_some_iff]

theorem charOfSignedHex?_eq_some_iff :
    charOfSignedHex? digits = some c ↔
      charOfHex? digits = some c ∨ ∃ behind, digits = '+' :: behind ∧
        charOfHex? behind = some c := by
  unfold charOfSignedHex?
  split
  · rename_i behind
    have hsign : charOfHex? ('+' :: behind) = none := by
      simp [charOfHex?, hexValue?, List.mapM_cons, show hexDigit? '+' = none by decide]
    simp [hsign]
  · rename_i hplain
    constructor
    · exact Or.inl
    · rintro (hread | ⟨behind, rfl, -⟩)
      · exact hread
      · exact absurd rfl (hplain behind)

/-! ## Numerals as text -/

/-- A numeral has digits alone. -/
theorem HexNumeral.isSome_hexDigit? {n : Nat} (hnumeral : HexNumeral digits n) :
    ∀ c ∈ digits, (hexDigit? c).isSome = true := by
  obtain ⟨values, hvalues, -⟩ := hnumeral
  have hboth : List.Forall₂ (fun c value => (hexDigit? c).isSome = true ∧ IsHexDigit c value)
      digits values := by
    refine hvalues.imp fun c value hdigit => ⟨?_, hdigit⟩
    rw [hexDigit?_eq_some_iff.mpr hdigit]
    rfl
  exact (List.forall₂_and_left _ _ |>.mp hboth).1

/-- A digit is a character of ASCII, so it takes one byte. -/
theorem utf8Size_of_hexDigit (hdigit : (hexDigit? c).isSome = true) : c.utf8Size = 1 := by
  obtain ⟨value, hvalue⟩ := Option.isSome_iff_exists.mp hdigit
  have hcode := (hexDigit?_eq_some_iff.mp hvalue).toNat_lt
  rw [Char.utf8Size_eq_one_iff, UInt32.le_iff_toNat_le]
  exact Nat.le_of_lt_succ hcode

/-- Digits take a byte each. -/
theorem byteLength_of_hexDigits (hdigits : ∀ c ∈ digits, (hexDigit? c).isSome = true) :
    byteLength digits = digits.length := by
  induction digits with
  | nil => rfl
  | cons c digits ih =>
    rw [byteLength_cons, utf8Size_of_hexDigit (hdigits c (List.mem_cons_self ..)),
      ih fun d hd => hdigits d (List.mem_cons_of_mem c hd), List.length_cons, Nat.add_comm]

/-! ## Code points -/

/-- The texts behind a backslash and the letter `u` that give a character. -/
inductive UnicodeEscape : List Char → Char → Prop
  /-- Four digits. -/
  | four {digits : List Char} {c : Char} (hlength : digits.length = 4)
      (hnumeral : HexNumeral digits c.toNat) : UnicodeEscape digits c
  /-- A plus sign and three digits. -/
  | signed {digits : List Char} {c : Char} (hlength : digits.length = 3)
      (hnumeral : HexNumeral digits c.toNat) : UnicodeEscape ('+' :: digits) c
  /-- Digits in braces. -/
  | braces {digits : List Char} {c : Char} (hsome : digits ≠ [])
      (hnumeral : HexNumeral digits c.toNat) : UnicodeEscape ('{' :: (digits ++ ['}'])) c

/-- A code point begins with a brace, a plus sign or a digit. -/
theorem UnicodeEscape.exists_head (hwritten : UnicodeEscape written c) :
    ∃ first ∈ written.head?, first = '{' ∨ first = '+' ∨ (hexDigit? first).isSome = true := by
  cases hwritten with
  | four hlength hnumeral =>
    obtain ⟨first, others, rfl⟩ := List.exists_cons_of_length_eq_add_one hlength
    exact ⟨first, rfl, Or.inr (Or.inr (hnumeral.isSome_hexDigit? first (List.mem_cons_self ..)))⟩
  | signed => exact ⟨'+', rfl, Or.inr (Or.inl rfl)⟩
  | braces => exact ⟨'{', rfl, Or.inl rfl⟩

/-- Four bytes that do not begin with a brace are read as a number with an optional
sign. -/
theorem readCodePoint_bytes (hbrace : s.head? ≠ some '{')
    (hbytes : takeBytes 4 s = some (digits, rest))
    (hread : charOfSignedHex? digits = some c) : readCodePoint s = .ok (c, rest) := by
  unfold readCodePoint
  split
  · simp at hbrace
  · simp [hbytes, hread]

/-- The text of a character is read as that character, whatever follows. -/
theorem readCodePoint_append (hwritten : UnicodeEscape written c) (rest : List Char) :
    readCodePoint (written ++ rest) = .ok (c, rest) := by
  have hbrace : (hexDigit? '{').isSome = false := by decide
  cases hwritten with
  | four hlength hnumeral =>
    have hdigits := hnumeral.isSome_hexDigit?
    obtain ⟨first, others, rfl⟩ := List.exists_cons_of_length_eq_add_one hlength
    refine readCodePoint_bytes ?_ ?_
      (charOfSignedHex?_eq_some_iff.mpr
        (Or.inl (charOfHex?_eq_some_iff.mpr ⟨by simp, hnumeral⟩)))
    · rintro hfirst
      have hdigit := hdigits first (List.mem_cons_self ..)
      rw [show first = '{' by simpa using hfirst, hbrace] at hdigit
      cases hdigit
    · rw [← hlength, ← byteLength_of_hexDigits hdigits]
      exact takeBytes_byteLength _ rest
  | @signed digits _ hlength hnumeral =>
    have hsome : digits ≠ [] := by
      rintro rfl
      simp at hlength
    refine readCodePoint_bytes (by simp) ?_
      (charOfSignedHex?_eq_some_iff.mpr
        (Or.inr ⟨digits, rfl, charOfHex?_eq_some_iff.mpr ⟨hsome, hnumeral⟩⟩))
    have hbytes : byteLength ('+' :: digits) = 4 := by
      rw [byteLength_cons, byteLength_of_hexDigits hnumeral.isSome_hexDigit?, hlength]
      rfl
    rw [← hbytes]
    exact takeBytes_byteLength _ rest
  | @braces digits _ hsome hnumeral =>
    have hstop : ∀ c ∈ ('}' :: rest).head?, (hexDigit? c).isSome = false := by
      simp only [List.head?_cons, Option.mem_some_iff]
      rintro c rfl
      decide
    have hsplit : '{' :: (digits ++ ['}']) ++ rest = '{' :: (digits ++ '}' :: rest) := by
      simp
    rw [hsplit, readCodePoint]
    simp only [takeWhile_append_of_stop hnumeral.isSome_hexDigit? hstop,
      dropWhile_append_of_stop hnumeral.isSome_hexDigit? hstop, expect, if_true,
      charOfHex?_eq_some_iff.mpr ⟨hsome, hnumeral⟩, bind, Except.bind]

/-- Where something follows nothing else is read as a character. -/
theorem exists_unicodeEscape (hread : readCodePoint s = .ok (c, rest)) (hrest : rest ≠ []) :
    ∃ written, UnicodeEscape written c ∧ s = written ++ rest := by
  unfold readCodePoint at hread
  split at hread
  · rename_i s
    obtain ⟨behind, hclose, hread⟩ := ok_of_bind hread
    split at hread
    · rename_i found hfound
      simp only [Except.ok.injEq, Prod.mk.injEq] at hread
      obtain ⟨rfl, rfl⟩ := hread
      obtain ⟨hsome, hnumeral⟩ := charOfHex?_eq_some_iff.mp hfound
      refine ⟨_, UnicodeEscape.braces hsome hnumeral, ?_⟩
      rw [List.cons_append, List.append_assoc, List.singleton_append,
        ← expect_eq_ok_iff.mp hclose, List.takeWhile_append_dropWhile]
    · simp [stopBefore] at hread
  · split at hread
    · rename_i taken behind hbytes
      split at hread
      · rename_i found hfound
        simp only [Except.ok.injEq, Prod.mk.injEq] at hread
        obtain ⟨rfl, rfl⟩ := hread
        obtain ⟨rfl, hcount⟩ := eq_of_takeBytes hbytes
        have hcount := hcount.resolve_right hrest
        rcases charOfSignedHex?_eq_some_iff.mp hfound with hplain | ⟨digits, rfl, hsigned⟩
        · obtain ⟨-, hnumeral⟩ := charOfHex?_eq_some_iff.mp hplain
          rw [byteLength_of_hexDigits hnumeral.isSome_hexDigit?] at hcount
          exact ⟨taken, UnicodeEscape.four hcount hnumeral, rfl⟩
        · obtain ⟨-, hnumeral⟩ := charOfHex?_eq_some_iff.mp hsigned
          have hlength : digits.length = 3 := by
            rw [byteLength_cons, byteLength_of_hexDigits hnumeral.isSome_hexDigit?,
              show '+'.utf8Size = 1 from rfl] at hcount
            omega
          exact ⟨'+' :: digits, UnicodeEscape.signed hlength hnumeral, rfl⟩
      · simp [stopBefore] at hread
    · simp at hread

end Phrasebook.Script

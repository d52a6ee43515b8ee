import Phrasebook.Json.Printer
import Phrasebook.Json.Reader

/-!
# JSON strings read back

A text in double quotes, escaped the way JSON strings are printed, is read as the
text that was quoted, whatever stands behind it.

Main results:

- Theorem `readStringBody_escaped`: the reader of strings undoes the escapes and
  stops right behind the closing quote.
- Theorem `readWhole_quote`: a quoted text alone is read as that text.
-/

namespace Phrasebook.Json

open Text

/-! ## One character at a time -/

theorem readStringBody_quote (s : List Char) :
    readStringBody ('"' :: s) = .ok ([], s) := by
  rw [readStringBody]
  simp

/-- An escape inside a string stands for one character. -/
theorem readStringBody_escape {s rest : List Char} {c : Char}
    (hescape : readEscape s = .ok (c, rest)) :
    readStringBody ('\\' :: s) =
      (readStringBody rest).map fun read => (c :: read.1, read.2) := by
  rw [readStringBody]
  simp only [Char.reduceEq, if_false, if_true]
  split
  · rename_i hfail
    simp [hescape] at hfail
  · rename_i meant behind hread
    simp only [hescape, Except.ok.injEq, Prod.mk.injEq] at hread
    rw [hread.1, hread.2]

/-- A character that needs no escape stands for itself. -/
theorem readStringBody_plain {c : Char} (s : List Char) (hquote : c ≠ '"')
    (hbackslash : c ≠ '\\') (hcontrol : ¬c.toNat < 0x20) :
    readStringBody (c :: s) =
      (readStringBody s).map fun read => (c :: read.1, read.2) := by
  rw [readStringBody]
  simp [hquote, hbackslash, hcontrol]

/-- The two digits of a control character have its code as their value. -/
theorem hexValue?_control : ∀ code < 0x20,
    hexValue? ['0', '0', Nat.digitChar (code / 16), Nat.digitChar (code % 16)] =
      some code := by
  decide

/-- A control character is read back from its four digits. -/
theorem readEscape_control {c : Char} (hcontrol : c.toNat < 0x20) (s : List Char) :
    readEscape ('u' :: '0' :: '0' :: Nat.digitChar (c.toNat / 16) ::
      Nat.digitChar (c.toNat % 16) :: s) = .ok (c, s) := by
  have hunit : readUnit ('0' :: '0' :: Nat.digitChar (c.toNat / 16) ::
      Nat.digitChar (c.toNat % 16) :: s) = .ok (c.toNat, s) := by
    simp [readUnit, hexValue?_control c.toNat hcontrol]
  have hleading : isLeadingSurrogate c.toNat = false := by
    simp only [isLeadingSurrogate, Bool.and_eq_false_iff, decide_eq_false_iff_not]
    omega
  have htrailing : isTrailingSurrogate c.toNat = false := by
    simp only [isTrailingSurrogate, Bool.and_eq_false_iff, decide_eq_false_iff_not]
    omega
  simp [readEscape, shortEscape?, readCoded, hunit, bind, Except.bind, hleading,
    htrailing]

/-- A character is printed inside a string as a short escape, by the code of a
control character, or as itself. -/
theorem escapeChar_cases (c : Char) :
    (∃ letter, escapeChar c = ['\\', letter] ∧ shortEscape? letter = some c) ∨
      (escapeChar c = ['\\', 'u', '0', '0', Nat.digitChar (c.toNat / 16),
        Nat.digitChar (c.toNat % 16)] ∧ c.toNat < 0x20) ∨
      (escapeChar c = [c] ∧ c ≠ '"' ∧ c ≠ '\\' ∧ ¬c.toNat < 0x20) := by
  by_cases hshort : c ∈ ['"', '\\', '\x08', '\x0c', '\n', '\r', '\t']
  · left
    simp only [List.mem_cons, List.not_mem_nil, or_false] at hshort
    rcases hshort with rfl | rfl | rfl | rfl | rfl | rfl | rfl <;>
      exact ⟨_, rfl, rfl⟩
  · right
    simp only [List.mem_cons, List.not_mem_nil, or_false, not_or] at hshort
    obtain ⟨hquote, hbackslash, hb, hf, hn, hr, ht⟩ := hshort
    by_cases hcontrol : c.toNat < 0x20
    · left
      simp [escapeChar, hquote, hbackslash, hb, hf, hn, hr, ht, hcontrol]
    · right
      simp [escapeChar, hquote, hbackslash, hb, hf, hn, hr, ht, hcontrol]

/-- A character as it is printed inside a string is read as that character. -/
theorem readStringBody_escapeChar (c : Char) (s : List Char) :
    readStringBody (escapeChar c ++ s) =
      (readStringBody s).map fun read => (c :: read.1, read.2) := by
  rcases escapeChar_cases c with ⟨letter, hescape, hletter⟩ | ⟨hescape, hcontrol⟩ |
    ⟨hescape, hquote, hbackslash, hcontrol⟩
  · rw [hescape]
    exact readStringBody_escape (by simp [readEscape, hletter])
  · rw [hescape]
    exact readStringBody_escape (readEscape_control hcontrol s)
  · rw [hescape]
    exact readStringBody_plain s hquote hbackslash hcontrol

/-! ## Whole strings -/

/-- Reading undoes the escapes of a string and stops behind its closing quote. -/
theorem readStringBody_escaped (text rest : List Char) :
    readStringBody (text.flatMap escapeChar ++ '"' :: rest) = .ok (text, rest) := by
  induction text with
  | nil => exact readStringBody_quote rest
  | cons c text ih =>
    rw [List.flatMap_cons, List.append_assoc, readStringBody_escapeChar, ih]
    rfl

theorem toList_quote (text : String) :
    (quote text).toList = '"' :: text.toList.flatMap escapeChar ++ ['"'] := by
  simp [quote]

/-- A quoted text alone is read as the text that was quoted. -/
theorem readWhole_quote (text : String) :
    readWhole readString (quote text).toList = .ok text := by
  have hbody := readStringBody_escaped text.toList []
  simp [toList_quote, readWhole, readString, hbody, Except.map, bind, Except.bind,
    skipSpace]

end Phrasebook.Json

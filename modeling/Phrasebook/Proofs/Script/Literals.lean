import Phrasebook.Proofs.Json.Numbers
import Phrasebook.Proofs.Json.Strings
import Phrasebook.Script.Lexical

/-!
# Literals of scripts read back

A string or number literal is found again in front of any text that cannot
belong to it: behind a string anything may follow, behind a number anything that
does not start with a character of numbers.

Main results:

- Theorem `readString_quote`: a quoted text is cut out and read, whatever follows.
- Theorem `isNumberChar_of_mem_text`: numbers are printed with the characters of
  number literals alone.
- Theorem `readNumber_text`: a printed number is cut out, and read as what its
  text alone is read as.
-/

namespace Phrasebook.Script

open Text

/-! ## Strings -/

/-- Behind a backslash every character is passed over. -/
theorem closeString?_escaped_pair (letter : Char) (s : List Char) :
    closeString? false ('\\' :: letter :: s) =
      (closeString? false s).map fun read => ('\\' :: letter :: read.1, read.2) := by
  simp [closeString?, Function.comp_def]

/-- A character that is neither a quote nor a backslash is passed over. -/
theorem closeString?_plain {c : Char} (s : List Char) (hquote : c ≠ '"')
    (hbackslash : c ≠ '\\') :
    closeString? false (c :: s) =
      (closeString? false s).map fun read => (c :: read.1, read.2) := by
  simp [closeString?, hquote, hbackslash]

/-- The closing quote is not inside what a printed character consists of. -/
theorem closeString?_escapeChar (c : Char) (s : List Char) :
    closeString? false (Json.escapeChar c ++ s) =
      (closeString? false s).map fun read => (Json.escapeChar c ++ read.1, read.2) := by
  rcases Json.escapeChar_cases c with ⟨letter, hescape, -⟩ | ⟨hescape, -⟩ |
    ⟨hescape, hquote, hbackslash, -⟩
  · rw [hescape]
    exact closeString?_escaped_pair letter s
  · rw [hescape]
    have hdigit : ∀ n, Nat.digitChar n ≠ '"' ∧ Nat.digitChar n ≠ '\\' :=
      fun n => ⟨Nat.digitChar_ne _ (by decide), Nat.digitChar_ne _ (by decide)⟩
    have hzero : '0' ≠ '"' ∧ '0' ≠ '\\' := by decide
    simp only [List.cons_append, List.nil_append]
    rw [closeString?_escaped_pair, closeString?_plain _ hzero.1 hzero.2,
      closeString?_plain _ hzero.1 hzero.2,
      closeString?_plain _ (hdigit _).1 (hdigit _).2,
      closeString?_plain _ (hdigit _).1 (hdigit _).2]
    simp [Function.comp_def]
  · rw [hescape]
    exact closeString?_plain s hquote hbackslash

/-- The closing quote of an escaped text is the one that was put behind it. -/
theorem closeString?_escaped (text rest : List Char) :
    closeString? false (text.flatMap Json.escapeChar ++ '"' :: rest) =
      some (text.flatMap Json.escapeChar ++ ['"'], rest) := by
  induction text with
  | nil => simp [closeString?]
  | cons c text ih =>
    rw [List.flatMap_cons, List.append_assoc, closeString?_escapeChar, ih]
    simp

/-- A quoted text is cut out of what it stands in front of, and read. -/
theorem readString_quote (text : String) (rest : List Char) :
    readString ((Json.quote text).toList ++ rest) = .ok (text, rest) := by
  have hclosed := closeString?_escaped text.toList rest
  have hwhole := Json.readWhole_quote text
  rw [Json.toList_quote] at hwhole ⊢
  simp only [List.cons_append, List.append_assoc, List.nil_append] at hwhole ⊢
  simp only [readString, hclosed, hwhole]

/-! ## Numbers -/

/-- A numeral, perhaps with a fraction or an exponent: characters of numbers alone,
the first of them a digit. -/
def Numeric (text : List Char) : Prop :=
  (∀ c ∈ text, isNumberChar c = true) ∧ ∃ c ∈ text.head?, c.isDigit = true

theorem isNumberChar_of_isDigit {c : Char} (hc : c.isDigit = true) :
    isNumberChar c = true := by
  simp [isNumberChar, hc]

theorem numeric_numeral (n : Nat) : Numeric (Nat.toDigits 10 n) := by
  refine ⟨fun c hc => isNumberChar_of_isDigit (Json.isDigit_of_mem_numeral hc), ?_⟩
  cases hdigits : Nat.toDigits 10 n with
  | nil => simp at hdigits
  | cons digit digits =>
    exact ⟨digit, rfl, Json.isDigit_of_mem_numeral (n := n) (by simp [hdigits])⟩

/-- More characters of numbers may stand behind a numeral. -/
theorem Numeric.append {text more : List Char} (htext : Numeric text)
    (hmore : ∀ c ∈ more, isNumberChar c = true) : Numeric (text ++ more) := by
  obtain ⟨hchars, c, hhead, hdigit⟩ := htext
  refine ⟨?_, c, ?_, hdigit⟩
  · intro d hd
    rcases List.mem_append.mp hd with hd | hd
    · exact hchars d hd
    · exact hmore d hd
  · rw [List.head?_append, Option.mem_def.mp hhead]
    rfl

/-- Digits, a point and more digits. -/
theorem Numeric.append_fraction {text fraction : List Char} (htext : Numeric text)
    (hfraction : ∀ c ∈ fraction, c.isDigit = true) :
    Numeric (text ++ '.' :: fraction) := by
  apply htext.append
  intro c hc
  rcases List.mem_cons.mp hc with rfl | hc
  · rfl
  · exact isNumberChar_of_isDigit (hfraction c hc)

/-- Some of the first characters of a numeral, one at least, are a numeral. -/
theorem Numeric.take {text : List Char} (htext : Numeric text) {count : Nat}
    (hcount : 0 < count) : Numeric (text.take count) := by
  obtain ⟨hchars, c, hhead, hdigit⟩ := htext
  refine ⟨fun d hd => hchars d (List.mem_of_mem_take hd), c, ?_, hdigit⟩
  rw [List.head?_take, if_neg (by omega)]
  exact hhead

/-- The text of a finite number is numeric behind its sign. -/
theorem exists_numeric_double (x : Double) :
    ∃ magnitude, Numeric magnitude ∧
      x.text.toList = if x.negative then '-' :: magnitude else magnitude := by
  refine ⟨_, ?_, String.toList_ofList⟩
  have hdigits := numeric_numeral x.shortest.digits
  have hdigit : ∀ c ∈ Nat.toDigits 10 x.shortest.digits, c.isDigit = true :=
    fun c hc => Json.isDigit_of_mem_numeral hc
  split
  · rw [List.append_assoc]
    refine hdigits.append fun c hc => ?_
    simp only [List.mem_append, List.mem_replicate, List.mem_cons, List.not_mem_nil,
      or_false] at hc
    rcases hc with ⟨-, rfl⟩ | rfl | rfl <;> rfl
  split
  · rename_i hpoint
    refine (hdigits.take (by omega)).append_fraction fun c hc => ?_
    exact hdigit c (List.mem_of_mem_drop hc)
  split
  · have hzero : Numeric ['0'] := ⟨by simp [isNumberChar], '0', rfl, rfl⟩
    refine hzero.append_fraction fun c hc => ?_
    rcases List.mem_append.mp hc with hc | hc
    · rw [List.eq_of_mem_replicate hc]
      rfl
    · exact hdigit c hc
  · rw [List.append_assoc]
    refine (hdigits.take (by decide)).append fun c hc => ?_
    rcases List.mem_append.mp hc with hc | hc
    · split at hc
      · simp at hc
      · rcases List.mem_cons.mp hc with rfl | hc
        · rfl
        · exact isNumberChar_of_isDigit (hdigit c (List.mem_of_mem_drop hc))
    · rcases List.mem_cons.mp hc with rfl | hc
      · rfl
      rcases List.mem_cons.mp hc with rfl | hc
      · split <;> rfl
      · exact isNumberChar_of_isDigit (Json.isDigit_of_mem_numeral hc)

/-- The text of an integer is numeric behind its sign. -/
theorem exists_numeric_integer (i : Integer) :
    ∃ magnitude, Numeric magnitude ∧
      (i.text.toList = magnitude ∨ i.text.toList = '-' :: magnitude) := by
  refine ⟨_, numeric_numeral i.value.natAbs, ?_⟩
  by_cases hsign : 0 ≤ i.value
  · left
    rw [Json.toList_text_of_nonneg hsign, show i.value.toNat = i.value.natAbs by omega]
  · right
    exact Json.toList_text_of_neg (by omega)

/-- The text of a number is numeric, perhaps behind a minus sign. -/
theorem exists_numeric (n : Number) :
    ∃ magnitude, Numeric magnitude ∧
      (n.text.toList = magnitude ∨ n.text.toList = '-' :: magnitude) := by
  cases n with
  | integer i => exact exists_numeric_integer i
  | double x =>
    obtain ⟨magnitude, hnumeric, htext⟩ := exists_numeric_double x
    refine ⟨magnitude, hnumeric, ?_⟩
    rw [Number.text, htext]
    split
    · exact Or.inr rfl
    · exact Or.inl rfl

/-- Numbers are printed with the characters of number literals alone. -/
theorem isNumberChar_of_mem_text {n : Number} {c : Char} (hc : c ∈ n.text.toList) :
    isNumberChar c = true := by
  obtain ⟨magnitude, ⟨hchars, -⟩, htext | htext⟩ := exists_numeric n
  · exact hchars c (htext ▸ hc)
  · rw [htext] at hc
    rcases List.mem_cons.mp hc with rfl | hc
    · rfl
    · exact hchars c hc

/-- The text of a number starts with a minus sign or a digit. -/
theorem exists_head_text (n : Number) :
    ∃ c s, n.text.toList = c :: s ∧ (c = '-' ∨ c.isDigit = true) := by
  obtain ⟨magnitude, ⟨-, c, hhead, hdigit⟩, htext | htext⟩ := exists_numeric n
  · obtain ⟨s, hs⟩ := List.head?_eq_some_iff.mp hhead
    exact ⟨c, s, htext.trans hs, Or.inr hdigit⟩
  · exact ⟨'-', magnitude, htext, Or.inl rfl⟩

/-- A printed number is cut out of what it stands in front of, and read as what
its text alone is read as. -/
theorem readNumber_text {n : Number} (hback : n.ReadsBack) {rest : List Char}
    (hrest : ∀ c ∈ rest.head?, isNumberChar c = false) :
    readNumber (n.text.toList ++ rest) = .ok (n, rest) := by
  have hchars : ∀ c ∈ n.text.toList, isNumberChar c = true :=
    fun c hc => isNumberChar_of_mem_text hc
  simp only [readNumber, takeWhile_append_of_stop hchars hrest,
    dropWhile_append_of_stop hchars hrest, show Json.readWhole Json.readNumber
      n.text.toList = .ok n from hback]

end Phrasebook.Script

import Phrasebook.Proofs.Script.Layout
import Phrasebook.Proofs.Script.Literals
import Phrasebook.Script.TemplateReader

/-!
# Template literals read back

Inside a template literal text and holes follow each other.  The text is escaped,
and the keys in the holes are literals of their own.  Reading finds every boundary
again: the escapes are undone, a dollar sign opens a hole only before a brace that
no text left behind, and a hole ends with the literal of its key.

Main results:

- Theorem `readTemplateBody_escapeTemplate`: escaped text in front of anything but
  a brace is read as that text, and reading goes on right behind it.
- Theorem `readHole_source`: the source of a key is read as that key.
- Theorem `readTemplateBody_source`: the source of an interpolation is read as that
  interpolation, whatever follows its closing backtick.
-/

namespace Phrasebook.Script

open Text

/-! ## One step of the reader -/

/-- A backtick ends a template literal. -/
theorem readTemplateBody_backtick (s : List Char) :
    readTemplateBody ('\x60' :: s) = .ok (Interpolation.ofText "", s) := by
  rw [readTemplateBody]
  simp

/-- Behind a backslash an escape is read, and then the rest of the literal. -/
theorem readTemplateBody_backslash (s : List Char) :
    readTemplateBody ('\\' :: s) = readEscape s >>= fun escape =>
      (readTemplateBody escape.2).map fun read => (pushChar escape.1 read.1, read.2) := by
  rw [readTemplateBody]
  simp only [Char.reduceEq, if_false, if_true]
  split <;> rename_i hescape <;> rw [hescape] <;> rfl

/-- An escape stands for one character of text. -/
theorem readTemplateBody_escape {s rest : List Char} {c : Char}
    (hescape : readEscape s = .ok (c, rest)) :
    readTemplateBody ('\\' :: s) =
      (readTemplateBody rest).map fun read => (pushChar c read.1, read.2) := by
  rw [readTemplateBody_backslash, hescape]
  rfl

/-- Behind a dollar sign and a brace a hole is read, and then the rest of the
literal. -/
theorem readTemplateBody_dollar (s : List Char) :
    readTemplateBody ('$' :: '{' :: s) = readHole s >>= fun hole =>
      (readTemplateBody hole.2).map fun read => (read.1.prependKey hole.1, read.2) := by
  rw [readTemplateBody]
  simp only [Char.reduceEq, List.head?_cons, and_self, if_false, if_true]
  split <;> rename_i hhole <;> rw [List.tail_cons] at hhole <;> rw [hhole] <;> rfl

/-- A dollar sign before a brace opens a hole. -/
theorem readTemplateBody_hole {s rest : List Char} {key : Key}
    (hhole : readHole s = .ok (key, rest)) :
    readTemplateBody ('$' :: '{' :: s) =
      (readTemplateBody rest).map fun read => (read.1.prependKey key, read.2) := by
  rw [readTemplateBody_dollar, hhole]
  rfl

/-- Every other character stands for itself. -/
theorem readTemplateBody_plain {c : Char} {s : List Char} (hbacktick : c ≠ '\x60')
    (hbackslash : c ≠ '\\') (hdollar : ¬(c = '$' ∧ s.head? = some '{')) :
    readTemplateBody (c :: s) =
      (readTemplateBody s).map fun read => (pushChar c read.1, read.2) := by
  rw [readTemplateBody]
  simp [hbacktick, hbackslash, hdollar]

/-! ## Text -/

/-- Escaped text begins with a brace only when the text does. -/
theorem head?_escapeTemplate_ne_brace {s tail : List Char}
    (hs : s.head? ≠ some '{') (htail : tail.head? ≠ some '{') :
    (escapeTemplate s ++ tail).head? ≠ some '{' := by
  cases s with
  | nil => simpa [escapeTemplate] using htail
  | cons c s =>
    have hc : c ≠ '{' := by simpa using hs
    simp only [escapeTemplate]
    split
    · simp
    split
    · simp
    split
    · simp
    · simpa using hc

/-- Text grows at its front by one character. -/
theorem pushChar_prepend (c : Char) (text : List Char) (i : Interpolation) :
    pushChar c (i.prepend (String.ofList text)) =
      i.prepend (String.ofList (c :: text)) := by
  have htext : String.singleton c ++ (String.ofList text ++ i.lead) =
      String.ofList (c :: text) ++ i.lead := by
    simp [← String.toList_inj]
  simp only [pushChar, Interpolation.prepend, htext]

/-- Reading a text and one character before it is reading the longer text. -/
theorem map_pushChar_prepend (c : Char) (text : List Char)
    (outcome : Except (Stop Fault) (Interpolation × List Char)) :
    ((outcome.map fun read => (read.1.prepend (String.ofList text), read.2)).map
        fun read => (pushChar c read.1, read.2)) =
      outcome.map fun read =>
        (read.1.prepend (String.ofList (c :: text)), read.2) := by
  cases outcome with
  | error stop => rfl
  | ok read => simp [Except.map, pushChar_prepend]

/-- Escaped text is read as the text that was escaped.  What stands behind it must
not begin with a brace, for the text may end in a dollar sign. -/
theorem readTemplateBody_escapeTemplate (text : List Char) {tail : List Char}
    (htail : tail.head? ≠ some '{') :
    readTemplateBody (escapeTemplate text ++ tail) =
      (readTemplateBody tail).map fun read =>
        (read.1.prepend (String.ofList text), read.2) := by
  induction text with
  | nil =>
    simp only [escapeTemplate, List.nil_append]
    cases readTemplateBody tail with
    | error stop => rfl
    | ok read => simp [Except.map, Interpolation.prepend]
  | cons c text ih =>
    rw [← map_pushChar_prepend, ← ih]
    simp only [escapeTemplate]
    split
    · rename_i hescaped
      apply readTemplateBody_escape
      rcases hescaped with rfl | rfl | ⟨rfl, -⟩ <;> simp [readEscape]
    rename_i hescaped
    simp only [not_or, not_and] at hescaped
    split
    · rename_i hbreak
      subst hbreak
      exact readTemplateBody_escape (by simp [readEscape])
    split
    · rename_i hreturn
      subst hreturn
      exact readTemplateBody_escape (by simp [readEscape])
    · apply readTemplateBody_plain hescaped.2.1 hescaped.1
      rintro ⟨hdollar, hbrace⟩
      exact head?_escapeTemplate_ne_brace (hescaped.2.2 hdollar) htail hbrace

/-! ## Holes -/

/-- The source of the key in a hole. -/
def keySource (key : Key) : List Char :=
  (Expr.ofKey key).source 0

theorem keySource_named (name : String) :
    keySource (.named name) = (Json.quote name).toList := by
  simp [keySource, Expr.ofKey, Expr.source, Json.text]

theorem keySource_index (place : Index) :
    keySource (.index place) = Nat.toDigits 10 place.val := by
  simp only [keySource, Expr.ofKey, Expr.source, Json.natural, Json.number, Json.text,
    Scalar.text, Number.text]
  exact Json.toList_text_of_nonneg (Int.natCast_nonneg place.val)

/-- A string is read as a name. -/
theorem readKey_named (name : String) (rest : List Char) :
    readKey (keySource (.named name) ++ rest) = .ok (.named name, rest) := by
  have hname := readString_quote name rest
  rw [keySource_named]
  rw [Json.toList_quote] at hname ⊢
  simp only [List.cons_append] at hname ⊢
  simp only [readKey, if_true, hname]
  rfl

/-- A numeral is read as a place, up to something that is no digit. -/
theorem readKey_index (place : Index) {rest : List Char}
    (hrest : ∀ c ∈ rest.head?, c.isDigit = false) :
    readKey (keySource (.index place) ++ rest) = .ok (.index place, rest) := by
  have hdigits : ∀ c ∈ Nat.toDigits 10 place.val, c.isDigit = true :=
    fun c hc => Json.isDigit_of_mem_numeral hc
  have hrun := Json.digitRun_append_of_digits hdigits hrest
  rw [keySource_index]
  cases hnumeral : Nat.toDigits 10 place.val with
  | nil => simp at hnumeral
  | cons digit digits =>
    have hdigit : digit.isDigit = true := hdigits digit (by simp [hnumeral])
    have hquote : digit ≠ '"' := by
      rintro rfl
      simp at hdigit
    have hvalue : Nat.ofDigitChars 10 (digit :: digits) 0 = place.val := by
      rw [← hnumeral, Nat.ofDigitChars_ten_toDigits]
    rw [hnumeral] at hrun
    simp only [List.cons_append] at hrun ⊢
    simp [readKey, hquote, hdigit, hrun, hvalue]

/-- The source of a key starts with something visible. -/
theorem trimStart_keySource (key : Key) (rest : List Char) :
    trimStart (keySource key ++ rest) = keySource key ++ rest := by
  apply trimStart_eq_self
  cases key with
  | named name =>
    simp [keySource_named, Json.toList_quote]
  | index place =>
    intro c hc
    apply isBlank_of_isDigit
    apply Json.isDigit_of_mem_numeral (n := place.val)
    rw [keySource_index, List.head?_append] at hc
    cases hnumeral : Nat.toDigits 10 place.val with
    | nil => simp at hnumeral
    | cons digit digits =>
      simp only [hnumeral, List.head?_cons, Option.some_or, Option.mem_some] at hc
      simp [hc]

/-- The source of a key is read as that key, in front of the brace behind it. -/
theorem readHole_source (key : Key) (rest : List Char) :
    readHole (keySource key ++ '}' :: rest) = .ok (key, rest) := by
  have hclose : trimStart ('}' :: rest) = '}' :: rest :=
    trimStart_eq_self (by simp)
  have hkey : readKey (keySource key ++ '}' :: rest) = .ok (key, '}' :: rest) := by
    cases key with
    | named name => exact readKey_named name _
    | index place => exact readKey_index place (by simp)
  simp [readHole, trimStart_keySource, hkey, bind, Except.bind, hclose, expect]

/-! ## Whole template literals -/

/-- The text between the backticks of the template literal of an interpolation:
the first segment, and for each key a hole and the segment behind it. -/
def templateSource (lead : String) : List (Key × String) → List Char
  | [] => escapeTemplate lead.toList
  | (key, segment) :: rest =>
      escapeTemplate lead.toList ++ ['$', '{'] ++ keySource key ++
        '}' :: templateSource segment rest

/-- The source of an interpolation is read as that interpolation, and reading stops
right behind its closing backtick. -/
theorem readTemplateBody_source (lead : String) (holes : List (Key × String))
    (rest : List Char) :
    readTemplateBody (templateSource lead holes ++ '\x60' :: rest) =
      .ok (⟨lead, holes⟩, rest) := by
  induction holes generalizing lead with
  | nil =>
    rw [templateSource, readTemplateBody_escapeTemplate _ (by simp),
      readTemplateBody_backtick]
    simp [Except.map, Interpolation.prepend, Interpolation.ofText]
  | cons hole holes ih =>
    obtain ⟨key, segment⟩ := hole
    simp only [templateSource, List.append_assoc, List.cons_append, List.nil_append]
    rw [readTemplateBody_escapeTemplate _ (by simp),
      readTemplateBody_hole (readHole_source key _), ih]
    simp [Except.map, Interpolation.prepend, Interpolation.prependKey]

/-- The holes of the template of an interpolation are printed as its source. -/
theorem holesSource_eq_templateSource (level : UInt64) (lead : String)
    (holes : List (Key × String)) :
    Expr.holesSource level (Interpolation.segments ⟨lead, holes⟩)
        ((Interpolation.keys ⟨lead, holes⟩).map Expr.ofKey) =
      templateSource lead holes := by
  induction holes generalizing lead with
  | nil =>
    simp [Interpolation.segments, Interpolation.keys, Expr.holesSource, templateSource]
  | cons hole holes ih =>
    obtain ⟨key, segment⟩ := hole
    have hkey : (Expr.ofKey key).source level = keySource key := by
      cases key <;> simp [keySource, Expr.ofKey, Expr.source]
    have hlevel : (Expr.ofKey key).levelBehind level = level := by
      cases key <;> simp [Expr.ofKey, Expr.levelBehind]
    have hrest := ih segment
    simp only [Interpolation.segments, Interpolation.keys, List.map_cons] at hrest ⊢
    simp only [Expr.holesSource, templateSource, hkey, hlevel, hrest]

end Phrasebook.Script

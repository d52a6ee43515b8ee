import Phrasebook.Phrase.Basic
import Phrasebook.Script.Lexical

/-!
# Reading template literals

A template literal alternates text and holes.  Escapes in the text stand for single characters; a
hole holds a key: a string for a name, or a decimal numeral for a place.
-/

namespace Phrasebook.Script

open Text

/-! ## Escapes -/

/-- A character given by its code point in hexadecimal digits, at least one. -/
def charOfHex? (digits : List Char) : Option Char :=
  if digits.isEmpty then none else (hexValue? digits).bind charOfCode?

/-- A character given by its code point, with an optional plus sign before the digits. -/
def charOfSignedHex? : List Char → Option Char
  | '+' :: digits => charOfHex? digits
  | digits => charOfHex? digits

/-- The character of a code point, from behind `\u`: any number of digits in braces, or exactly
the next four bytes. -/
def readCodePoint : List Char → Except (Stop Fault) (Char × List Char)
  | '{' :: s => do
      let digits := s.takeWhile fun c => (hexDigit? c).isSome
      let rest ← expect '}' (s.dropWhile fun c => (hexDigit? c).isSome)
      match charOfHex? digits with
      | some c => .ok (c, rest)
      | none => stopBefore .invalidUnicodeEscape rest
  | s =>
      match takeBytes 4 s with
      | some (digits, rest) =>
          match charOfSignedHex? digits with
          | some c => .ok (c, rest)
          | none => stopBefore .invalidUnicodeEscape rest
      | none => .error ⟨.invalidUnicodeEscape, byteLength s - 4⟩

/-- The character that an escape stands for, from behind its backslash. -/
def readEscape : List Char → Except (Stop Fault) (Char × List Char)
  | [] => stopAtEnd .unterminatedEscape
  | c :: s =>
      if c = 'n' then .ok ('\n', s)
      else if c = 'r' then .ok ('\r', s)
      else if c = 't' then .ok ('\t', s)
      else if c = '0' then .ok ('\x00', s)
      else if c = 'u' then readCodePoint s
      else .ok (c, s)

/-! ## Holes -/

/-- A key. -/
def readKey : List Char → Except (Stop Fault) (Key × List Char)
  | [] => stopAtEnd .expectedKey
  | c :: s =>
      if c = '"' then (readString (c :: s)).map fun read => (.named read.1, read.2)
      else if c.isDigit then
        let value := Nat.ofDigitChars 10 (Json.digitRun (c :: s)).1 0
        let rest := (Json.digitRun (c :: s)).2
        if h : value < 18446744073709551616 then .ok (.index ⟨value, h⟩, rest)
        else stopBefore .invalidIndex rest
      else stopBefore .expectedKey (c :: s)

/-- A hole, from behind the brace that opens it. -/
def readHole (s : List Char) : Except (Stop Fault) (Key × List Char) := do
  let (key, rest) ← readKey (trimStart s)
  let rest ← expect '}' (trimStart rest)
  .ok (key, rest)

/-! ## Lengths -/

theorem length_of_readCodePoint {s rest : List Char} {c : Char}
    (h : readCodePoint s = .ok (c, rest)) : rest.length ≤ s.length := by
  unfold readCodePoint at h
  split at h
  · rename_i s
    cases he : expect '}' (s.dropWhile fun c => (hexDigit? c).isSome) with
    | error e => simp [he, bind, Except.bind] at h
    | ok after =>
      have shorter := length_of_expect he
      have suffix := (List.dropWhile_suffix (l := s) fun c => (hexDigit? c).isSome).length_le
      simp only [he, bind, Except.bind] at h
      split at h
      · simp only [Except.ok.injEq, Prod.mk.injEq] at h
        rw [h.2] at shorter
        simp only [List.length_cons]
        omega
      · simp [stopBefore] at h
  · split at h
    · rename_i taken
      split at h
      · simp only [Except.ok.injEq, Prod.mk.injEq] at h
        exact h.2 ▸ (suffix_of_takeBytes taken).length_le
      · simp [stopBefore] at h
    · simp at h

theorem length_of_escaped {s rest : List Char} {meant first c : Char}
    (h : (.ok (meant, s) : Except (Stop Fault) (Char × List Char)) = .ok (c, rest)) :
    rest.length < (first :: s).length := by
  simp only [Except.ok.injEq, Prod.mk.injEq] at h
  simp [h.2]

theorem length_of_readEscape {s rest : List Char} {c : Char} (h : readEscape s = .ok (c, rest)) :
    rest.length < s.length := by
  cases s with
  | nil => simp [readEscape, stopAtEnd] at h
  | cons first s =>
    simp only [readEscape] at h
    split at h
    case isTrue => exact length_of_escaped h
    split at h
    case isTrue => exact length_of_escaped h
    split at h
    case isTrue => exact length_of_escaped h
    split at h
    case isTrue => exact length_of_escaped h
    split at h
    case isTrue =>
      have := length_of_readCodePoint h
      simp only [List.length_cons]
      omega
    case isFalse => exact length_of_escaped h

theorem length_of_readKey {s rest : List Char} {key : Key} (h : readKey s = .ok (key, rest)) :
    rest.length ≤ s.length := by
  cases s with
  | nil => simp [readKey, stopAtEnd] at h
  | cons c s =>
    simp only [readKey] at h
    split at h
    · cases hr : readString (c :: s) with
      | error e => simp [hr, Except.map] at h
      | ok read =>
        obtain ⟨value, behind⟩ := read
        have := length_of_readString hr
        simp only [hr, Except.map, Except.ok.injEq, Prod.mk.injEq] at h
        rw [← h.2]
        omega
    · split at h
      · split at h
        · simp only [Except.ok.injEq, Prod.mk.injEq] at h
          rw [← h.2]
          exact (List.dropWhile_suffix _).length_le
        · simp [stopBefore] at h
      · simp [stopBefore] at h

theorem length_of_readHole {s rest : List Char} {key : Key} (h : readHole s = .ok (key, rest)) :
    rest.length < s.length := by
  unfold readHole at h
  cases hk : readKey (trimStart s) with
  | error e => simp [hk, bind, Except.bind] at h
  | ok read =>
    obtain ⟨value, behind⟩ := read
    have shorter := length_of_readKey hk
    have front := length_trimStart_le s
    have back := length_trimStart_le behind
    cases he : expect '}' (trimStart behind) with
    | error e => simp [hk, he, bind, Except.bind] at h
    | ok after =>
      have closed := length_of_expect he
      simp only [hk, he, bind, Except.bind, Except.ok.injEq, Prod.mk.injEq] at h
      rw [h.2] at closed
      omega

/-! ## Template literals -/

/-- Put a character in front of an interpolation. -/
def pushChar (c : Char) (i : Interpolation) : Interpolation :=
  i.prepend (String.singleton c)

/-- The segments and keys of a template literal, from behind its opening backtick. -/
def readTemplateBody : List Char → Except (Stop Fault) (Interpolation × List Char)
  | [] => stopAtEnd .unterminatedTemplate
  | c :: s =>
      if c = '\x60' then .ok (Interpolation.ofText "", s)
      else if c = '\\' then
        match h : readEscape s with
        | .error stop => .error stop
        | .ok (meant, rest) =>
            have := length_of_readEscape h
            (readTemplateBody rest).map fun read => (pushChar meant read.1, read.2)
      else if c = '$' ∧ s.head? = some '{' then
        match h : readHole s.tail with
        | .error stop => .error stop
        | .ok (key, rest) =>
            have : rest.length < s.length :=
              Nat.lt_of_lt_of_le (length_of_readHole h) (List.tail_sublist s).length_le
            (readTemplateBody rest).map fun read => (read.1.prependKey key, read.2)
      else (readTemplateBody s).map fun read => (pushChar c read.1, read.2)
termination_by s => s.length

/-- A template literal. -/
def readTemplate (s : List Char) : Except (Stop Fault) (Interpolation × List Char) := do
  let rest ← expect '\x60' s
  readTemplateBody rest

end Phrasebook.Script

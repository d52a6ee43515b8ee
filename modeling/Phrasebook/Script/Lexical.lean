import Phrasebook.Json.Reader
import Phrasebook.Script.Fault
import Phrasebook.Text.Blank

/-!
# Words and literals of scripts

The smallest parts of a compiled source.  A string or number literal is first cut out of the text
and then read as a JSON text of its own; a fault in it counts for its start.
-/

namespace Phrasebook.Script

open Text

/-- A character that has to stand at the front of the text. -/
def expect (c : Char) : List Char → Except (Stop Fault) (List Char)
  | [] => stopAtEnd (.expectedChar c)
  | first :: rest => if first = c then .ok rest else stopBefore (.expectedChar c) (first :: rest)

/-! ## Words -/

/-- The characters that a word can start with. -/
def isWordStart (c : Char) : Bool :=
  c.isAlpha || c = '_' || c = '$'

/-- The characters that a word can go on with. -/
def isWordChar (c : Char) : Bool :=
  isWordStart c || c.isDigit

/-- The longest run of word characters, and the rest behind it. -/
def wordRun (s : List Char) : List Char × List Char :=
  (s.takeWhile isWordChar, s.dropWhile isWordChar)

/-! ## Literals -/

/-- The text up to and with the first quote that no backslash escapes, and the rest behind it. -/
def closeString? : (escaped : Bool) → List Char → Option (List Char × List Char)
  | _, [] => none
  | escaped, c :: s =>
      if c = '"' ∧ escaped = false then some ([c], s)
      else (closeString? (c = '\\' && !escaped) s).map fun read => (c :: read.1, read.2)

/-- A string literal, from its opening quote on. -/
def readString : List Char → Except (Stop Fault) (String × List Char)
  | [] => stopAtEnd (.expectedChar '"')
  | quote :: s =>
      match closeString? false s with
      | none => stopAtEnd .unterminatedString
      | some (inner, rest) =>
          match Json.readWhole Json.readString (quote :: inner) with
          | .ok text => .ok (text, rest)
          | .error stop => stopBefore (.badLiteral (Json.faultReport (quote :: inner) stop)) (quote :: s)

/-- The characters of number literals. -/
def isNumberChar (c : Char) : Bool :=
  c.isDigit || c = '-' || c = '+' || c = '.' || c = 'e' || c = 'E'

/-- A number literal, from its first character on. -/
def readNumber (s : List Char) : Except (Stop Fault) (Number × List Char) :=
  let literal := s.takeWhile isNumberChar
  match Json.readWhole Json.readNumber literal with
  | .ok number => .ok (number, s.dropWhile isNumberChar)
  | .error stop => stopBefore (.badLiteral (Json.faultReport literal stop)) s

/-! ## Lengths -/

theorem length_of_expect {c : Char} {s rest : List Char} (h : expect c s = .ok rest) :
    rest.length < s.length := by
  cases s with
  | nil => simp [expect, stopAtEnd] at h
  | cons first s =>
    simp only [expect] at h
    split at h
    · simp only [Except.ok.injEq] at h
      simp [h]
    · simp [stopBefore] at h

/-- What follows a closed string follows its quote. -/
theorem suffix_of_closeString? {escaped : Bool} {s inner rest : List Char}
    (h : closeString? escaped s = some (inner, rest)) : '"' :: rest <:+ s := by
  induction s generalizing escaped inner with
  | nil => simp [closeString?] at h
  | cons c s ih =>
    simp only [closeString?] at h
    split at h
    · rename_i quote
      simp only [Option.some.injEq, Prod.mk.injEq] at h
      exact quote.1 ▸ h.2 ▸ List.suffix_rfl
    · simp only [Option.map_eq_some_iff, Prod.mk.injEq] at h
      obtain ⟨read, hread, _, rfl⟩ := h
      exact (ih hread).trans (List.suffix_cons c s)

theorem length_of_closeString? {escaped : Bool} {s inner rest : List Char}
    (h : closeString? escaped s = some (inner, rest)) : rest.length < s.length :=
  Nat.lt_of_succ_le (suffix_of_closeString? h).length_le

theorem length_of_readString {s rest : List Char} {text : String}
    (h : readString s = .ok (text, rest)) : rest.length < s.length := by
  cases s with
  | nil => simp [readString, stopAtEnd] at h
  | cons quote s =>
    simp only [readString] at h
    split at h
    · simp [stopAtEnd] at h
    · rename_i closed
      split at h
      · simp only [Except.ok.injEq, Prod.mk.injEq] at h
        have := length_of_closeString? closed
        simp only [List.length_cons, ← h.2]
        omega
      · simp [stopBefore] at h

end Phrasebook.Script

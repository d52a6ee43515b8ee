import Phrasebook.Json.Fault
import Phrasebook.Text.Hex

/-!
# Reading JSON strings

A string is read from behind its opening quote up to its closing one.  Escapes of four hexadecimal
digits stand for UTF-16 units, so a character outside the basic plane is written as a pair of
surrogates, and a surrogate without its partner is refused.
-/

namespace Phrasebook.Json

open Text

/-- The character that a one-letter escape stands for. -/
def shortEscape? (c : Char) : Option Char :=
  if c = '"' then some '"'
  else if c = '\\' then some '\\'
  else if c = '/' then some '/'
  else if c = 'b' then some '\x08'
  else if c = 'f' then some '\x0c'
  else if c = 'n' then some '\n'
  else if c = 'r' then some '\r'
  else if c = 't' then some '\t'
  else none

/-- A UTF-16 unit written with four hexadecimal digits.  The four digits are looked for in the next
four bytes; when they are not there, reading stops behind those bytes. -/
def readUnit (s : List Char) : Except (Stop Fault) (Nat × List Char) :=
  match s.take 4, hexValue? (s.take 4) with
  | [_, _, _, _], some unit => .ok (unit, s.drop 4)
  | _, _ =>
      if byteLength s < 4 then stopAtEnd .endInString
      else .error ⟨.invalidEscape, byteLength s - 4⟩

/-- A leading surrogate is one half of a pair, the first. -/
def isLeadingSurrogate (unit : Nat) : Bool :=
  0xD800 ≤ unit && unit < 0xDC00

/-- A trailing surrogate is one half of a pair, the second. -/
def isTrailingSurrogate (unit : Nat) : Bool :=
  0xDC00 ≤ unit && unit < 0xE000

/-- The character that a pair of surrogates stands for. -/
def charOfPair (leading trailing : Nat) : Char :=
  Char.ofNat (0x10000 + 0x400 * (leading - 0xD800) + (trailing - 0xDC00))

/-- The trailing surrogate that has to follow a leading one, and the character of the pair. -/
def readTrailing (leading : Nat) : List Char → Except (Stop Fault) (Char × List Char)
  | [] => stopAtEnd .endInString
  | '\\' :: [] => stopAtEnd .endInString
  | '\\' :: 'u' :: s => do
      let (trailing, rest) ← readUnit s
      if isTrailingSurrogate trailing then .ok (charOfPair leading trailing, rest)
      else stopBefore .loneSurrogate rest
  | '\\' :: s => stopPast .unfinishedSurrogatePair s
  | s => stopPast .unfinishedSurrogatePair s

/-- A character written by its UTF-16 units, from behind the first `\u`. -/
def readCoded (s : List Char) : Except (Stop Fault) (Char × List Char) := do
  let (unit, rest) ← readUnit s
  if isLeadingSurrogate unit then readTrailing unit rest
  else if isTrailingSurrogate unit then stopBefore .loneSurrogate rest
  else .ok (Char.ofNat unit, rest)

/-- The character that an escape stands for, from behind its backslash. -/
def readEscape : List Char → Except (Stop Fault) (Char × List Char)
  | [] => stopAtEnd .endInString
  | c :: s =>
      match shortEscape? c with
      | some meant => .ok (meant, s)
      | none => if c = 'u' then readCoded s else stopPast .invalidEscape (c :: s)

/-- A unit is read from the front of the text. -/
theorem length_of_readUnit {s rest : List Char} {unit : Nat} (h : readUnit s = .ok (unit, rest)) :
    rest.length ≤ s.length := by
  unfold readUnit at h
  split at h
  · simp only [Except.ok.injEq, Prod.mk.injEq] at h
    rw [← h.2, List.length_drop]
    omega
  · split at h <;> simp [stopAtEnd] at h

/-- Reading an escape leaves less text. -/
theorem length_of_readTrailing {leading : Nat} {s rest : List Char} {c : Char}
    (h : readTrailing leading s = .ok (c, rest)) : rest.length ≤ s.length := by
  unfold readTrailing at h
  split at h
  case h_3 t =>
    cases hu : readUnit t with
    | error e => simp [hu, bind, Except.bind] at h
    | ok read =>
      obtain ⟨value, behind⟩ := read
      have := length_of_readUnit hu
      simp only [hu, bind, Except.bind] at h
      split at h
      · simp only [Except.ok.injEq, Prod.mk.injEq] at h
        simp only [List.length_cons, ← h.2]
        omega
      · simp [stopBefore] at h
  all_goals simp [stopAtEnd, stopPast] at h

theorem length_of_readEscape {s rest : List Char} {c : Char} (h : readEscape s = .ok (c, rest)) :
    rest.length < s.length := by
  cases s with
  | nil => simp [readEscape, stopAtEnd] at h
  | cons first s =>
    simp only [readEscape] at h
    split at h
    · simp only [Except.ok.injEq, Prod.mk.injEq] at h
      simp [← h.2]
    · split at h
      · unfold readCoded at h
        cases hu : readUnit s with
        | error e => simp [hu, bind, Except.bind] at h
        | ok read =>
          obtain ⟨value, behind⟩ := read
          have bound := length_of_readUnit hu
          simp only [hu, bind, Except.bind] at h
          split at h
          · have := length_of_readTrailing h
            simp only [List.length_cons]
            omega
          · split at h
            · simp [stopBefore] at h
            · simp only [Except.ok.injEq, Prod.mk.injEq] at h
              simp only [List.length_cons, ← h.2]
              omega
      · simp [stopPast] at h

/-- The characters of a string up to its closing quote. -/
def readStringBody : List Char → Except (Stop Fault) (List Char × List Char)
  | [] => stopAtEnd .endInString
  | c :: s =>
      if c = '"' then .ok ([], s)
      else if c = '\\' then
        match h : readEscape s with
        | .error stop => .error stop
        | .ok (meant, rest) =>
            have := length_of_readEscape h
            (readStringBody rest).map fun read => (meant :: read.1, read.2)
      else if c.toNat < 0x20 then stopBefore .controlCharacter s
      else (readStringBody s).map fun read => (c :: read.1, read.2)
termination_by s => s.length

/-- A string with its quotes. -/
def readString : List Char → Except (Stop Fault) (String × List Char)
  | '"' :: s => (readStringBody s).map fun read => (String.ofList read.1, read.2)
  | s => stopPast .expectedValue s

end Phrasebook.Json

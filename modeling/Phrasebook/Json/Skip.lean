import Phrasebook.Json.Reader

/-!
# Skipping JSON values

Going over a value whose content does not matter.  Only the shape of the text is checked: numbers
may have any size, escapes may stand for half a surrogate pair, and values may nest to any depth.
-/

namespace Phrasebook.Json

open Text

/-- Go over an escape, from behind its backslash. -/
def skipEscape : List Char → Except (Stop Fault) (List Char)
  | [] => stopAtEnd .endInString
  | c :: s =>
      if (shortEscape? c).isSome then .ok s
      else if c = 'u' then (readUnit s).map Prod.snd
      else stopPast .invalidEscape (c :: s)

theorem length_of_skipEscape {s rest : List Char} (h : skipEscape s = .ok rest) :
    rest.length < s.length := by
  cases s with
  | nil => simp [skipEscape, stopAtEnd] at h
  | cons c s =>
    simp only [skipEscape] at h
    split at h
    · simp only [Except.ok.injEq] at h
      simp [h]
    · split at h
      · cases hu : readUnit s with
        | error e => simp [hu, Except.map] at h
        | ok read =>
          obtain ⟨value, behind⟩ := read
          have := length_of_readUnit hu
          simp only [hu, Except.map, Except.ok.injEq] at h
          rw [List.length_cons, ← h]
          omega
      · simp [stopPast] at h

/-- Go over a string, from behind its opening quote. -/
def skipStringBody : List Char → Except (Stop Fault) (List Char)
  | [] => stopAtEnd .endInString
  | c :: s =>
      if c = '"' then .ok s
      else if c = '\\' then
        match h : skipEscape s with
        | .error stop => .error stop
        | .ok rest =>
            have := length_of_skipEscape h
            skipStringBody rest
      else if c.toNat < 0x20 then stopBefore .controlCharacter (c :: s)
      else skipStringBody s
termination_by s => s.length

/-- Go over an exponent, from behind its letter. -/
def skipExponent (s : List Char) : Except (Stop Fault) (List Char) :=
  match digitRun (exponentSign s).2 with
  | ([], rest) => stopPast .invalidNumber rest
  | (_, rest) => .ok rest

/-- Go over a fraction, from behind its point, and over an exponent if there is one. -/
def skipFraction (s : List Char) : Except (Stop Fault) (List Char) :=
  match digitRun s with
  | ([], rest) => stopPast .invalidNumber rest
  | (_, 'e' :: rest) | (_, 'E' :: rest) => skipExponent rest
  | (_, rest) => .ok rest

/-- Go over a number, from behind its sign. -/
def skipUnsigned (s : List Char) : Except (Stop Fault) (List Char) :=
  match s with
  | [] => stopAtEnd .invalidNumber
  | _ => do
      let (_, rest) ← readIntegerDigits s
      match rest with
      | '.' :: rest => skipFraction rest
      | 'e' :: rest | 'E' :: rest => skipExponent rest
      | rest => .ok rest

/-! ## Lists -/

/-- Go over the items of an array after the first, up to the closing bracket. -/
def skipMoreItems (item : List Char → Except (Stop Fault) (List Char)) :
    (budget : Nat) → List Char → Except (Stop Fault) (List Char)
  | 0, _ => stopAtEnd .endInList
  | budget + 1, s =>
      match skipSpace s with
      | [] => stopAtEnd .endInList
      | ']' :: rest => .ok rest
      | ',' :: rest => do
          let rest ← item rest
          skipMoreItems item budget rest
      | rest => stopPast .expectedListCommaOrEnd rest

/-- Go over an array, from behind its opening bracket. -/
def skipItems (item : List Char → Except (Stop Fault) (List Char)) (s : List Char) :
    Except (Stop Fault) (List Char) :=
  match skipSpace s with
  | [] => stopAtEnd .endInList
  | ']' :: rest => .ok rest
  | rest => do
      let rest ← item rest
      skipMoreItems item (rest.length + 1) rest

/-- Go over a name, a colon and a value. -/
def skipEntry (item : List Char → Except (Stop Fault) (List Char)) (s : List Char) :
    Except (Stop Fault) (List Char) :=
  match skipSpace s with
  | [] => stopAtEnd .endInObject
  | '"' :: rest => do
      let rest ← skipStringBody rest
      let rest ← readColon rest
      item rest
  | rest => stopPast .keyNotString rest

/-- Go over the entries of an object after the first, up to the closing brace. -/
def skipMoreEntries (entry : List Char → Except (Stop Fault) (List Char)) :
    (budget : Nat) → List Char → Except (Stop Fault) (List Char)
  | 0, _ => stopAtEnd .endInObject
  | budget + 1, s =>
      match skipSpace s with
      | [] => stopAtEnd .endInObject
      | '}' :: rest => .ok rest
      | ',' :: rest => do
          let rest ← entry rest
          skipMoreEntries entry budget rest
      | rest => stopPast .expectedObjectCommaOrEnd rest

/-- Go over an object, from behind its opening brace. -/
def skipEntries (entry : List Char → Except (Stop Fault) (List Char)) (s : List Char) :
    Except (Stop Fault) (List Char) :=
  match skipSpace s with
  | [] => stopAtEnd .endInObject
  | '}' :: rest => .ok rest
  | rest => do
      let rest ← entry rest
      skipMoreEntries entry (rest.length + 1) rest

/-! ## Values -/

/-- Go over a value whose items are gone over by `item`. -/
def skipValueWith (item : List Char → Except (Stop Fault) (List Char)) (s : List Char) :
    Except (Stop Fault) (List Char) :=
  match skipSpace s with
  | [] => stopAtEnd .endInValue
  | 'n' :: rest => readWord ['u', 'l', 'l'] rest
  | 't' :: rest => readWord ['r', 'u', 'e'] rest
  | 'f' :: rest => readWord ['a', 'l', 's', 'e'] rest
  | '"' :: rest => skipStringBody rest
  | '[' :: rest => skipItems item rest
  | '{' :: rest => skipEntries (skipEntry item) rest
  | '-' :: rest => skipUnsigned rest
  | c :: rest =>
      if c.isDigit then skipUnsigned (c :: rest) else stopPast .expectedValue (c :: rest)

/-- Go over a value that nests at most `depth` deep. -/
def skipNested : (depth : Nat) → List Char → Except (Stop Fault) (List Char)
  | 0 => fun _ => stopAtEnd .endInValue
  | depth + 1 => skipValueWith (skipNested depth)

/-- Go over a value.  A text cannot nest deeper than it is long. -/
def skipValue (s : List Char) : Except (Stop Fault) (List Char) :=
  skipNested (s.length + 1) s

end Phrasebook.Json

import Phrasebook.Json.NumberReader
import Phrasebook.Json.StringReader

/-!
# Reading JSON texts

Values are read from the front of a text.  Arrays and objects nest only so deep: the reader of a
value is built from the reader of the values one level down, and at the last level there is none.

A value is read with all entries of its objects.  In the value that a whole text stands for, names
are unique: of a name that is repeated the first place and the last value count.
-/

namespace Phrasebook.Json

open Text

/-- The white space of JSON is four characters. -/
def isSpace (c : Char) : Bool :=
  c = ' ' || c = '\n' || c = '\t' || c = '\r'

/-- A text without the white space at its front. -/
def skipSpace (s : List Char) : List Char :=
  s.dropWhile isSpace

/-- Go over the letters of a word that has to stand at the front of the text. -/
def readWord : (word : List Char) → List Char → Except (Stop Fault) (List Char)
  | [], s => .ok s
  | _ :: _, [] => stopAtEnd .endInValue
  | letter :: word, c :: s =>
      if c = letter then readWord word s else stopPast .expectedWord (c :: s)

/-! ## Lists of items -/

/-- The items of an array after the first, each behind a comma, up to the closing bracket.  Every
item takes a character, so a budget of the length of the text is enough. -/
def readMoreItems (item : Reader Fault α) :
    (budget : Nat) → List Char → Except (Stop Fault) (List α × List Char)
  | 0, _ => stopAtEnd .endInList
  | budget + 1, s =>
      match skipSpace s with
      | [] => stopAtEnd .endInList
      | ']' :: rest => .ok ([], rest)
      | ',' :: rest =>
          match skipSpace rest with
          | ']' :: rest => stopPast .trailingComma (']' :: rest)
          | rest => do
              let (first, rest) ← item rest
              let (others, rest) ← readMoreItems item budget rest
              .ok (first :: others, rest)
      | rest => stopPast .expectedListCommaOrEnd rest

/-- The items of an array, from behind its opening bracket. -/
def readItems (item : Reader Fault α) (s : List Char) :
    Except (Stop Fault) (List α × List Char) :=
  match skipSpace s with
  | [] => stopAtEnd .endInList
  | ']' :: rest => .ok ([], rest)
  | rest => do
      let (first, rest) ← item rest
      let (others, rest) ← readMoreItems item (rest.length + 1) rest
      .ok (first :: others, rest)

/-! ## Lists of entries -/

/-- The colon between a name and its value. -/
def readColon (s : List Char) : Except (Stop Fault) (List Char) :=
  match skipSpace s with
  | [] => stopAtEnd .endInObject
  | ':' :: rest => .ok rest
  | rest => stopPast .expectedColon rest

/-- A name, a colon and a value. -/
def readEntry (item : Reader Fault α) : Reader Fault (String × α)
  | '"' :: s => do
      let (name, rest) ← readString ('"' :: s)
      let rest ← readColon rest
      let (value, rest) ← item rest
      .ok ((name, value), rest)
  | s => stopPast .keyNotString s

/-- The entries of an object after the first, each behind a comma, up to the closing brace. -/
def readMoreEntries (entry : Reader Fault α) :
    (budget : Nat) → List Char → Except (Stop Fault) (List α × List Char)
  | 0, _ => stopAtEnd .endInObject
  | budget + 1, s =>
      match skipSpace s with
      | [] => stopAtEnd .endInObject
      | '}' :: rest => .ok ([], rest)
      | ',' :: rest =>
          match skipSpace rest with
          | [] => stopAtEnd .endInValue
          | '}' :: rest => stopPast .trailingComma ('}' :: rest)
          | rest => do
              let (first, rest) ← entry rest
              let (others, rest) ← readMoreEntries entry budget rest
              .ok (first :: others, rest)
      | rest => stopPast .expectedObjectCommaOrEnd rest

/-- The entries of an object, from behind its opening brace. -/
def readEntries (entry : Reader Fault α) (s : List Char) :
    Except (Stop Fault) (List α × List Char) :=
  match skipSpace s with
  | [] => stopAtEnd .endInObject
  | '}' :: rest => .ok ([], rest)
  | rest => do
      let (first, rest) ← entry rest
      let (others, rest) ← readMoreEntries entry (rest.length + 1) rest
      .ok (first :: others, rest)

/-! ## Values -/

/-- A value whose items, if it has any, are read by `inner`. -/
def readValueWith (inner : Option (Reader Fault Json)) (s : List Char) :
    Except (Stop Fault) (Json × List Char) :=
  match skipSpace s with
  | [] => stopAtEnd .endInValue
  | 'n' :: rest => (readWord ['u', 'l', 'l'] rest).map (null, ·)
  | 't' :: rest => (readWord ['r', 'u', 'e'] rest).map (bool true, ·)
  | 'f' :: rest => (readWord ['a', 'l', 's', 'e'] rest).map (bool false, ·)
  | '"' :: rest => (readString ('"' :: rest)).map fun read => (.string read.1, read.2)
  | '[' :: rest =>
      match inner with
      | none => stopPast .nestedTooDeep ('[' :: rest)
      | some item => (readItems item rest).map fun read => (.array read.1, read.2)
  | '{' :: rest =>
      match inner with
      | none => stopPast .nestedTooDeep ('{' :: rest)
      | some item =>
          (readEntries (readEntry item) rest).map fun read => (.object read.1, read.2)
  | c :: rest =>
      if c = '-' ∨ c.isDigit then
        (readNumber (c :: rest)).map fun read => (number read.1, read.2)
      else stopPast .expectedValue (c :: rest)

/-- A value whose arrays and objects nest at most `depth` deep. -/
def readValue : (depth : Nat) → Reader Fault Json
  | 0 => readValueWith none
  | depth + 1 => readValueWith (some (readValue depth))

/-! ## Unique names -/

mutual

/-- The same value with unique names in its objects. -/
def unique : Json → Json
  | .scalar value => .scalar value
  | .string text => .string text
  | .array items => .array (uniqueItems items)
  | .object entries => .object (Entries.ofList (uniqueEntries entries))

/-- The same items with unique names in their objects. -/
def uniqueItems : List Json → List Json
  | [] => []
  | item :: items => unique item :: uniqueItems items

/-- The same entries with unique names in the objects they hold. -/
def uniqueEntries : List (String × Json) → List (String × Json)
  | [] => []
  | (name, value) :: entries => (name, unique value) :: uniqueEntries entries

end

/-! ## Whole texts -/

/-- Read a text to its end.  Only white space may follow what is read. -/
def readWhole (reader : Reader Fault α) (text : List Char) : Except (Stop Fault) α := do
  let (value, rest) ← reader text
  match skipSpace rest with
  | [] => .ok value
  | rest => stopPast .trailingCharacters rest

/-- How deep arrays and objects may nest in a text. -/
def depthLimit : Nat := 127

/-- The value that a text stands for. -/
def ofText (text : List Char) : Except (Stop Fault) Json :=
  (readWhole (readValue depthLimit) text).map unique

end Phrasebook.Json

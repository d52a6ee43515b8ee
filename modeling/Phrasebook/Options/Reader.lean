import Phrasebook.Json.Skip
import Phrasebook.Options.Basic
import Phrasebook.Options.Fault
import Phrasebook.Text.Debug

/-!
# Reading options

Options are an object with named fields, of which each may be left out and unknown ones do not
matter, or an array of the fields in order, of which the last ones may be left out.

A fault in the text counts for the place where it is.  A repeated field, and a value that is no
fallback setting, are noticed a little later: they count for the place behind the object or array
if it ends there, and otherwise for the next thing in the text.
-/

namespace Phrasebook.Options

open Text

/-! ## Single values -/

/-- A JSON reader whose faults are told as faults of options. -/
def fromJson (read : Except (Stop Json.Fault) α) : Except (Stop Fault) α :=
  read.mapError (Stop.map .json)

/-- A value of the wrong type, in words; arrays and objects are not looked into. -/
def describeFound : Json → String
  | .null => "null"
  | .bool value => s!"boolean `{(Scalar.bool value).text}`"
  | .number (.integer value) => s!"integer `{value.text}`"
  | .number (.double value) => s!"floating point `{value.text}`"
  | .string text => s!"string {debugQuote text}"
  | .array _ => "sequence"
  | .object _ => "map"

/-- Stop at a value of the wrong type: behind it, but before an array or object. -/
def refuse (wanted : Wanted) (s : List Char) : Except (Stop Fault) α :=
  match s with
  | '[' :: _ => stopBefore (.wrongType "sequence" wanted) s
  | '{' :: _ => stopBefore (.wrongType "map" wanted) s
  | _ => do
      let (found, rest) ← fromJson (Json.readValueWith none s)
      stopBefore (.wrongType (describeFound found) wanted) rest

/-- A string. -/
def readText (s : List Char) : Except (Stop Fault) (String × List Char) :=
  match Json.skipSpace s with
  | '"' :: rest => fromJson (Json.readString ('"' :: rest))
  | rest => refuse .text rest

/-- A truth value. -/
def readFlag (s : List Char) : Except (Stop Fault) (Bool × List Char) :=
  match Json.skipSpace s with
  | 't' :: rest => (fromJson (Json.readWord ['r', 'u', 'e'] rest)).map (true, ·)
  | 'f' :: rest => (fromJson (Json.readWord ['a', 'l', 's', 'e'] rest)).map (false, ·)
  | rest => refuse .flag rest

/-- The fallback setting of a value in which names may be repeated.  All its entries have to be
settings, also those that a later one of the same name replaces. -/
def fallbackOf? (value : Json) : Option Fallback :=
  (Fallback.ofJson? value).bind fun _ => Fallback.ofJson? value.unique

/-- A fallback setting, if the value has the shape of one. -/
def readFallback (s : List Char) : Except (Stop Fault) (Option Fallback × List Char) := do
  let (value, rest) ← fromJson (Json.readValue (Json.depthLimit - 1) s)
  .ok (fallbackOf? value, rest)

/-! ## Fields -/

/-- The settings given so far. -/
structure Given where
  locale : Option String := none
  fallback : Option Fallback := none
  silentMiss : Option Bool := none
  silentFallback : Option Bool := none

/-- Whether a setting is given. -/
def Given.has (given : Given) : Field → Bool
  | .locale => given.locale.isSome
  | .fallback => given.fallback.isSome
  | .silentMiss => given.silentMiss.isSome
  | .silentFallback => given.silentFallback.isSome

/-- The settings given, with the default for each other one. -/
def Given.complete (given : Given) : Options :=
  { locale := given.locale.getD default.locale
    fallback := given.fallback.getD default.fallback
    silentMiss := given.silentMiss.getD default.silentMiss
    silentFallback := given.silentFallback.getD default.silentFallback }

/-- The value of a field.  `close` tells the place that a fault of shape counts for. -/
def readField (close : List Char → List Char) (given : Given) (field : Field) (s : List Char) :
    Except (Stop Fault) (Given × List Char) :=
  match field with
  | .locale =>
      (readText s).map fun (value, rest) => ({ given with locale := some value }, rest)
  | .silentMiss =>
      (readFlag s).map fun (value, rest) => ({ given with silentMiss := some value }, rest)
  | .silentFallback =>
      (readFlag s).map fun (value, rest) => ({ given with silentFallback := some value }, rest)
  | .fallback => do
      match ← readFallback s with
      | (some value, rest) => .ok ({ given with fallback := some value }, rest)
      | (none, rest) => stopBefore .fallbackShape (close rest)

/-! ## Objects -/

/-- The text behind the white space at its front and behind a closing brace if one comes next. -/
def pastBrace (s : List Char) : List Char :=
  match Json.skipSpace s with
  | '}' :: rest => rest
  | rest => rest

/-- One entry of an object of settings. -/
def readEntry (given : Given) (s : List Char) : Except (Stop Fault) (Given × List Char) :=
  match s with
  | '"' :: _ => do
      let (name, rest) ← fromJson (Json.readString s)
      match Field.named? name with
      | some field =>
          if given.has field then stopBefore (.repeated field) (pastBrace rest)
          else do
            let rest ← fromJson (Json.readColon rest)
            readField pastBrace given field rest
      | none => do
          let rest ← fromJson (Json.readColon rest)
          let rest ← fromJson (Json.skipValue rest)
          .ok (given, rest)
  | _ => stopPast (.json .keyNotString) s

/-- The entries of an object after the first, up to the closing brace. -/
def readMoreEntries (given : Given) :
    (budget : Nat) → List Char → Except (Stop Fault) (Given × List Char)
  | 0, _ => stopAtEnd (.json .endInObject)
  | budget + 1, s =>
      match Json.skipSpace s with
      | [] => stopAtEnd (.json .endInObject)
      | '}' :: rest => .ok (given, rest)
      | ',' :: rest =>
          match Json.skipSpace rest with
          | [] => stopAtEnd (.json .endInValue)
          | '}' :: rest => stopPast (.json .trailingComma) ('}' :: rest)
          | rest => do
              let (given, rest) ← readEntry given rest
              readMoreEntries given budget rest
      | rest => stopPast (.json .expectedObjectCommaOrEnd) rest

/-- An object of settings, from behind its opening brace. -/
def readObject (s : List Char) : Except (Stop Fault) (Given × List Char) :=
  match Json.skipSpace s with
  | [] => stopAtEnd (.json .endInObject)
  | '}' :: rest => .ok ({}, rest)
  | rest => do
      let (given, rest) ← readEntry {} rest
      readMoreEntries given (rest.length + 1) rest

/-! ## Arrays -/

/-- The text behind the white space at its front, and behind a closing bracket, or a comma and the
white space after it, if one comes next. -/
def pastBracket (s : List Char) : List Char :=
  match Json.skipSpace s with
  | ']' :: rest => rest
  | ',' :: rest => Json.skipSpace rest
  | rest => rest

/-- The end of an array of settings. -/
def readArrayEnd (s : List Char) : Except (Stop Fault) (List Char) :=
  match Json.skipSpace s with
  | [] => stopAtEnd (.json .endInList)
  | ']' :: rest => .ok rest
  | ',' :: rest =>
      match Json.skipSpace rest with
      | ']' :: rest => stopPast (.json .trailingComma) (']' :: rest)
      | rest => stopPast (.json .trailingCharacters) rest
  | rest => stopPast (.json .trailingCharacters) rest

/-- The fields of an array that follow another one, as many as there are. -/
def readMoreFields (given : Given) :
    (fields : List Field) → List Char → Except (Stop Fault) (Given × List Char)
  | [], s => (readArrayEnd s).map (given, ·)
  | field :: fields, s =>
      match Json.skipSpace s with
      | [] => stopAtEnd (.json .endInList)
      | ']' :: rest => .ok (given, rest)
      | ',' :: rest =>
          match Json.skipSpace rest with
          | [] => stopAtEnd (.json .endInValue)
          | ']' :: rest => stopPast (.json .trailingComma) (']' :: rest)
          | rest => do
              let (given, rest) ← readField pastBracket given field rest
              readMoreFields given fields rest
      | rest => stopPast (.json .expectedListCommaOrEnd) rest

/-- An array of settings, from behind its opening bracket. -/
def readArray (s : List Char) : Except (Stop Fault) (Given × List Char) :=
  match Json.skipSpace s with
  | [] => stopAtEnd (.json .endInList)
  | ']' :: rest => .ok ({}, rest)
  | rest => do
      let (given, rest) ← readField pastBracket {} .locale rest
      readMoreFields given [.fallback, .silentMiss, .silentFallback] rest

/-! ## Whole texts -/

/-- Settings as an object or an array. -/
def readGiven (s : List Char) : Except (Stop Fault) (Given × List Char) :=
  match Json.skipSpace s with
  | '{' :: rest => readObject rest
  | '[' :: rest => readArray rest
  | rest => refuse .options rest

/-- The options that a text stands for. -/
def ofText (text : List Char) : Except (Stop Fault) Options := do
  let (given, rest) ← readGiven text
  match Json.skipSpace rest with
  | [] => .ok given.complete
  | rest => stopPast (.json .trailingCharacters) rest

end Phrasebook.Options

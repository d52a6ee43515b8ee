import Phrasebook.Script.TemplateReader
import Phrasebook.Tree.Basic

/-!
# Reading compiled sources

The source that is printed for a tree of phrases can be read back: string literals, functions that
tag a template with their own parameter, arrays, objects and the scalars of JSON, with an optional
module header before and an optional semicolon behind.  Reading is somewhat broader than printing:
white space may stand between any two parts, the last item of an array or object may be followed by
a comma, names of objects may be bare words, and parameters may have any name.

An array of phrases alone, at least one of them, is a plural group.
-/

namespace Phrasebook.Script

open Text

/-! ## Functions -/

/-- A function, from behind its parameter. -/
def readFunction (param : List Char) (s : List Char) :
    Except (Stop Fault) (Interpolation × List Char) := do
  let rest ← expect '=' (trimStart s)
  let rest ← expect '>' rest
  let call := trimStart rest
  match call with
  | [] => stopAtEnd .expectedRendererCall
  | c :: _ =>
      if isWordStart c = false then stopBefore .expectedRendererCall call
      else if (wordRun call).1 ≠ param then stopBefore .foreignCall call
      else readTemplate (trimStart (wordRun call).2)

/-! ## Arrays and objects -/

/-- Items up to the closing character, each but the last with a comma behind it.  Every item takes
a character, so a budget of the length of the text is enough. -/
def readItems (close : Char) (item : Reader Fault α) :
    (budget : Nat) → List Char → Except (Stop Fault) (List α × List Char)
  | 0, _ => stopAtEnd .unexpectedEnd
  | budget + 1, s =>
      if (trimStart s).head? = some close then .ok ([], (trimStart s).tail)
      else do
        let (first, rest) ← item (trimStart s)
        match trimStart rest with
        | ',' :: rest => do
            let (others, rest) ← readItems close item budget rest
            .ok (first :: others, rest)
        | rest => do
            let rest ← expect close rest
            .ok ([first], rest)

/-- The name of an entry: a string, or a bare word. -/
def readName : List Char → Except (Stop Fault) (String × List Char)
  | [] => stopAtEnd .expectedObjectKey
  | c :: s =>
      if c = '"' then readString (c :: s)
      else if isWordStart c then
        .ok (String.ofList (wordRun (c :: s)).1, (wordRun (c :: s)).2)
      else stopBefore .expectedObjectKey (c :: s)

/-- An entry: a name, a colon and a value. -/
def readEntry (item : Reader Fault α) : Reader Fault (String × α) := fun s => do
  let (name, rest) ← readName s
  let rest ← expect ':' (trimStart rest)
  let (value, rest) ← item rest
  .ok ((name, value), rest)

/-- The phrase of a tree that is one phrase. -/
def phrase? : Tree Phrase → Option Phrase
  | .cases (.single phrase) => some phrase
  | _ => none

/-- The tree of an array: a plural group when it holds phrases alone, at least one of them. -/
def treeOfItems (items : List (Tree Phrase)) : Tree Phrase :=
  match items, items.mapM phrase? with
  | _ :: _, some phrases => .cases (.plural phrases)
  | _, _ => .list items

/-! ## Values -/

/-- What a word starts: a scalar, or the parameter of a function. -/
def readWordValue (s : List Char) : Except (Stop Fault) (Tree Phrase × List Char) :=
  let (word, rest) := wordRun s
  if word = ['t', 'r', 'u', 'e'] then .ok (.data (.bool true), rest)
  else if word = ['f', 'a', 'l', 's', 'e'] then .ok (.data (.bool false), rest)
  else if word = ['n', 'u', 'l', 'l'] then .ok (.data .null, rest)
  else
    (readFunction word rest).map fun read => (.cases (.single (.interpolated read.1)), read.2)

/-- A value whose items, if it has any, are read by `item`. -/
def readValueWith (item : Reader Fault (Tree Phrase)) (s : List Char) :
    Except (Stop Fault) (Tree Phrase × List Char) :=
  match trimStart s with
  | [] => stopAtEnd .unexpectedEnd
  | c :: rest =>
      if c = '"' then
        (readString (c :: rest)).map fun read => (.cases (.single (.fixed read.1)), read.2)
      else if c = '[' then
        (readItems ']' item (rest.length + 1) rest).map fun read => (treeOfItems read.1, read.2)
      else if c = '{' then
        (readItems '}' (readEntry item) (rest.length + 1) rest).map fun read =>
          (.map (Entries.ofList read.1), read.2)
      else if c = '-' ∨ c.isDigit then
        (readNumber (c :: rest)).map fun read => (.data (.number read.1), read.2)
      else if isWordStart c then readWordValue (c :: rest)
      else stopBefore .unexpectedCharacter (c :: rest)

/-- A value that nests at most `depth` deep. -/
def readValue : (depth : Nat) → Reader Fault (Tree Phrase)
  | 0 => fun _ => stopAtEnd .unexpectedEnd
  | depth + 1 => readValueWith (readValue depth)

/-! ## Modules -/

/-- The value behind an optional module header. -/
def readHeader (s : List Char) : Except (Stop Fault) (List Char) :=
  match List.isPrefixOf? ['e', 'x', 'p', 'o', 'r', 't'] (trimStart s) with
  | none => .ok s
  | some rest =>
      match List.isPrefixOf? ['d', 'e', 'f', 'a', 'u', 'l', 't'] (trimStart rest) with
      | none => stopBefore .expectedDefault (trimStart rest)
      | some rest => .ok rest

/-- What may follow a value: white space and one semicolon. -/
def readFooter (s : List Char) : Except (Stop Fault) Unit :=
  let rest := match trimStart s with
    | ';' :: rest => rest
    | rest => rest
  match trimStart rest with
  | [] => .ok ()
  | rest => stopBefore .trailingSource rest

/-- A whole source.  A text cannot nest deeper than it is long. -/
def readSource (text : List Char) : Except (Stop Fault) (Tree Phrase) := do
  let rest ← readHeader text
  let (tree, rest) ← readValue (text.length + 1) rest
  readFooter rest
  .ok tree

end Phrasebook.Script

namespace Phrasebook

/-- The tree of phrases that a compiled source holds. -/
def Tree.ofSource (source : String) : Except SourceError (Tree Phrase) :=
  match Script.readSource source.toList with
  | .ok tree => .ok tree
  | .error stop => .error ⟨stop.cause, stop.offset source.toList⟩

end Phrasebook

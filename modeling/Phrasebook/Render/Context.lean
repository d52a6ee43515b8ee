import Phrasebook.Json.Printer
import Phrasebook.Key

/-!
# Contexts

A context answers keys with text.  Named values answer a place by its decimal numeral, so `{0}`
finds the value named `0`; sequences answer places only.
-/

namespace Phrasebook

/-- A context answers some keys with text. -/
abbrev Context := Key → Option String

namespace Context

/-- The context that answers nothing. -/
def empty : Context := fun _ => none

/-- Named texts. -/
def ofEntries (entries : Entries String) : Context := fun key =>
  entries.get? key.show

/-- Texts in a sequence. -/
def ofList (items : List String) : Context
  | .named _ => none
  | .index place => items[place.val]?

/-- Look in the first context, then in the second. -/
def layered (first second : Context) : Context := fun key =>
  (first key).or (second key)

end Context

/-- A JSON value as it stands in a message: strings without their quotes, nothing for `null`, and
JSON text for everything else. -/
def Json.plainText : Json → String
  | .string text => text
  | .null => ""
  | value => value.text

/-- The context of a JSON value: objects hold named values and arrays sequences. -/
def Context.ofJson : Json → Context
  | .object entries, key => (Entries.get? entries key.show).map Json.plainText
  | .array items, .index place => items[place.val]?.map Json.plainText
  | _, _ => none

end Phrasebook

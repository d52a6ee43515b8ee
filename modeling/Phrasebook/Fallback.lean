import Phrasebook.Json.Basic
import Phrasebook.Locale

/-!
# Fallback settings

Which locales stand in for another one: a single locale, a list of locales, or a map from locales
to such settings, in which a locale is looked for by its dialects.  A setting is written in JSON as
a string, an array of strings, or an object.
-/

namespace Phrasebook

/-- A fallback setting. -/
inductive Fallback where
  /-- One locale stands in for all others. -/
  | locale (name : String)
  /-- Several locales stand in, in this order. -/
  | chain (names : List String)
  /-- The setting depends on the locale. -/
  | byLocale (settings : List (String × Fallback))

namespace Fallback

/-- No locale stands in for another. -/
def none : Fallback := .chain []

/-! ## Chains -/

mutual

/-- The locales that stand in for a locale, in order.  In a map the first dialect of the locale that
is there decides. -/
def chainFor (locale : String) : Fallback → List String
  | .locale name => [name]
  | .chain names => names
  | .byLocale settings =>
      ((Locale.dialects locale).findSome? (Entries.get? (chainsFor locale settings))).getD []

/-- The locales that each setting of a map names for a locale. -/
def chainsFor (locale : String) : List (String × Fallback) → List (String × List String)
  | [] => []
  | (name, setting) :: settings => (name, chainFor locale setting) :: chainsFor locale settings

end

/-- What is found in a map is what the setting found there names. -/
theorem get?_chainsFor (locale : String) (settings : List (String × Fallback)) (name : String) :
    Entries.get? (chainsFor locale settings) name =
      (Entries.get? settings name).map (chainFor locale) := by
  induction settings with
  | nil => rfl
  | cons entry settings ih =>
    rw [chainsFor, Entries.get?_cons, Entries.get?_cons, ih]
    split <;> rfl

/-! ## JSON -/

mutual

/-- The JSON value of a setting. -/
def toJson : Fallback → Json
  | .locale name => .string name
  | .chain names => .array (names.map .string)
  | .byLocale settings => .object (entriesToJson settings)

/-- The JSON values of the settings of a map. -/
def entriesToJson : List (String × Fallback) → List (String × Json)
  | [] => []
  | (name, setting) :: settings => (name, toJson setting) :: entriesToJson settings

end

/-- The text of a JSON string. -/
def text? : Json → Option String
  | .string text => some text
  | _ => Option.none

mutual

/-- The setting of a JSON value, when it has the shape of one. -/
def ofJson? : Json → Option Fallback
  | .string name => some (.locale name)
  | .array items => (items.mapM text?).map .chain
  | .object entries => (entriesOfJson? entries).map .byLocale
  | .scalar _ => Option.none

/-- The settings of the entries of an object, when all of them are settings. -/
def entriesOfJson? : List (String × Json) → Option (List (String × Fallback))
  | [] => some []
  | (name, value) :: entries => do
      let setting ← ofJson? value
      let settings ← entriesOfJson? entries
      some ((name, setting) :: settings)

end

/-- The words for a JSON value that is no setting. -/
def shapeMessage : String :=
  "data did not match any variant of untagged enum FallbackLocale"

end Fallback

end Phrasebook

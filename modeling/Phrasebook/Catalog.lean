import Phrasebook.Compile
import Phrasebook.Entries

/-!
# Catalogs

A catalog holds the translations of several locales by key.  It is filled from a tree whose first
level names the locales; deeper names are joined with points, and leaves that are not messages are
left out.  Locales and keys keep the order in which they first appeared, and the last translation
written under a key is the one that counts.
-/

namespace Phrasebook

/-- The translations of one locale by key. -/
abbrev LocaleEntries := Entries Translation

/-- Translations by locale and key. -/
structure Catalog where
  locales : Entries LocaleEntries
  deriving DecidableEq

/-- Why no catalog can be made. -/
inductive CatalogError where
  /-- The value holds no messages. -/
  | notMessages (found : Json.Kind)
  /-- The tree does not name locales. -/
  | notLocaleMap
  /-- What stands under a locale does not name messages. -/
  | notMapping (locale : String)
  deriving DecidableEq, Repr

/-- The words for a catalog error. -/
def CatalogError.message : CatalogError → String
  | .notMessages found => inputReport found.describe
  | .notLocaleMap => inputReport "a message tree that is not a locale map"
  | .notMapping locale => s!"messages for locale \"{locale}\" must be a key/value mapping"

namespace Catalog

/-- The catalog without locales. -/
def empty : Catalog := ⟨[]⟩

/-- The translations of a locale; a locale that is not there has none. -/
def entriesOf (catalog : Catalog) (locale : String) : LocaleEntries :=
  (catalog.locales.get? locale).getD []

/-- The translation under a locale and a key. -/
def get? (catalog : Catalog) (locale key : String) : Option Translation :=
  (catalog.locales.get? locale).bind (Entries.get? · key)

/-- The names of the locales, in order. -/
def localeNames (catalog : Catalog) : List String :=
  Entries.keys catalog.locales

/-- Whether there are no translations, whatever the locales. -/
def isEmpty (catalog : Catalog) : Bool :=
  catalog.locales.all fun locale => locale.2.isEmpty

/-- Write several translations of a locale, in order.  The locale is there afterwards. -/
def putAll (catalog : Catalog) (locale : String) (added : LocaleEntries) : Catalog :=
  ⟨catalog.locales.put locale (Entries.putAll (catalog.entriesOf locale) added)⟩

/-- Write a translation under a locale and a key. -/
def put (catalog : Catalog) (locale key : String) (translation : Translation) : Catalog :=
  catalog.putAll locale [(key, translation)]

/-- Write a translation under a locale and a key, and give back the one that it replaces, if there is
one. -/
def getThenPut? (catalog : Catalog) (locale key : String) (translation : Translation) :
    Option Translation × Catalog :=
  let written := Entries.getThenPut? (catalog.entriesOf locale) key translation
  (written.1, ⟨catalog.locales.put locale written.2⟩)

/-- Write all translations of another catalog. -/
def merge (catalog other : Catalog) : Catalog :=
  other.locales.foldl (fun merged locale => merged.putAll locale.1 locale.2) catalog

/-- What a write replaces is what was there before it. -/
theorem getThenPut?_eq (catalog : Catalog) (locale key : String) (translation : Translation) :
    catalog.getThenPut? locale key translation =
      (catalog.get? locale key, catalog.put locale key translation) := by
  have hvalue : (catalog.entriesOf locale).get? key = catalog.get? locale key := by
    unfold get? entriesOf
    cases catalog.locales.get? locale <;> rfl
  rw [getThenPut?, Entries.getThenPut?_eq, hvalue]
  rfl

/-! ## Trees as catalogs -/

/-- A key below another one. -/
def joinKey : (path : Option String) → (name : String) → String
  | none, name => name
  | some path, name => path ++ "." ++ name

mutual

/-- The translations of a tree under the keys that lead to them. -/
def flatten (path : String) : Tree Phrase → LocaleEntries
  | .cases translation => [(path, translation)]
  | .map entries => flattenEntries (some path) entries
  | .list _ => []
  | .data _ => []

/-- The translations of named trees under the keys that lead to them. -/
def flattenEntries (path : Option String) : List (String × Tree Phrase) → LocaleEntries
  | [] => []
  | (name, tree) :: entries => flatten (joinKey path name) tree ++ flattenEntries path entries

end

/-- Fill a catalog with the trees of locales, up to the first that does not name messages. -/
def fill (catalog : Catalog) : List (String × Tree Phrase) → Except CatalogError Catalog
  | [] => .ok catalog
  | (locale, .map entries) :: locales => fill (catalog.putAll locale (flattenEntries none entries)) locales
  | (locale, _) :: _ => .error (.notMapping locale)

/-- The catalog of a tree that names locales. -/
def ofTree : Tree Phrase → Except CatalogError Catalog
  | .map locales => fill empty locales
  | _ => .error .notLocaleMap

/-- The catalog of a JSON object of locales. -/
def ofJson (value : Json) : Except CatalogError (Reported Catalog) :=
  match value with
  | .object _ =>
      let planned := treeBackend.emitValue value
      (ofTree planned.result).map fun catalog => ⟨catalog, planned.warnings⟩
  | _ => .error (.notMessages value.kind)

end Catalog

end Phrasebook

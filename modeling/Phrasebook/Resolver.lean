import Phrasebook.Catalog
import Phrasebook.Options.Basic

/-!
# Resolving keys

A key is looked up for a locale, and then for the locales that stand in for it.  A lookup for one
locale tries all dialects in a catalog of its own and then all dialects in the shared one.  The first
hit counts; without any, the key stands for itself.

A miss for the locale that was asked for and the use of a fallback can be warned about, each on its
own.  What is warned about never changes what is found.
-/

namespace Phrasebook

/-- What a key stands for. -/
inductive Resolution where
  /-- A translation was found. -/
  | message (translation : Translation)
  /-- Nothing was found, and the key stands for itself. -/
  | key (key : String)
  deriving DecidableEq

/-- The translation that was found. -/
def Resolution.translation? : Resolution → Option Translation
  | .message translation => some translation
  | .key _ => none

/-- Where keys are looked up, which locales stand in for others, and what is warned about. -/
structure Resolver where
  /-- The translations that are tried first. -/
  own : Catalog := Catalog.empty
  /-- The translations that are tried after its own. -/
  shared : Catalog
  /-- Which locales stand in for others. -/
  fallback : Fallback := Fallback.none
  /-- What is warned about. -/
  warnOn : WarnOn := WarnOn.all

namespace Resolver

/-- Look a key up in one catalog, for the dialects of a locale. -/
def lookupIn (catalog : Catalog) (key locale : String) : Option Translation :=
  (Locale.dialects locale).findSome? fun dialect => catalog.get? dialect key

/-- Look a key up for one locale, without the locales that stand in for it. -/
def lookup? (resolver : Resolver) (key locale : String) : Option Translation :=
  (lookupIn resolver.own key locale).or (lookupIn resolver.shared key locale)

/-- The locales that stand in for a locale, other than itself. -/
def standIns (resolver : Resolver) (locale : String) : List String :=
  (resolver.fallback.chainFor locale).filter (· ≠ locale)

/-- The first of several locales that has a translation for a key, with that translation. -/
def firstHit? (resolver : Resolver) (key : String) (locales : List String) :
    Option (String × Translation) :=
  locales.findSome? fun locale =>
    (resolver.lookup? key locale).map fun translation => (locale, translation)

/-- Resolve a key for a locale. -/
def resolve (resolver : Resolver) (key locale : String) : Reported Resolution :=
  match resolver.lookup? key locale with
  | some translation => ⟨.message translation, []⟩
  | none =>
      let missed := if resolver.warnOn.miss then [Warning.missing key locale] else []
      match resolver.firstHit? key (resolver.standIns locale) with
      | some (fallback, translation) =>
          let used := if resolver.warnOn.fallback then [Warning.fellBack key fallback] else []
          ⟨.message translation, missed ++ used⟩
      | none => ⟨.key key, missed⟩

end Resolver

end Phrasebook

import Phrasebook.Text.Pieces

/-!
# Locales

A locale is a tag whose subtags are divided by hyphens.  The dialects of a locale are the locale
itself and what is left when its last subtag is dropped, again and again, as long as something is
left.
-/

namespace Phrasebook.Locale

open Text

/-- A tag and its dialects, the longest first. -/
def chain (tag : List Char) : List (List Char) :=
  match h : beforeLast? '-' tag with
  | none => [tag]
  | some shorter =>
      have := length_of_beforeLast? h
      tag :: chain shorter
termination_by tag.length

/-- The dialects of a locale, the locale itself first. -/
def dialects (locale : String) : List String :=
  (chain locale.toList).map String.ofList

end Phrasebook.Locale

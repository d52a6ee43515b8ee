import Phrasebook.Proofs.Resolver.Dialects

/-!
# Redundant fallback locales

A search for a locale has tried all its dialects when it misses.  So a dialect of a
locale that was asked for before needs no place of its own in a list of fallback
locales: a search for it would miss again.

Main results:

- Theorem `lookup?_eq_none_of_mem`: a miss for a locale is a miss for its dialects.
- Theorem `firstHit?_remove`: what misses, or comes behind a hit, can be left out.
- Theorem `resolve_fallback_congr`: a fallback setting counts through the first hit for
  its locales only, whether or not the locale of the request is among them.
- Theorem `resolve_redundant`: without a redundant fallback locale a key is resolved as
  with it, and the same warnings are raised.
-/

namespace Phrasebook.Resolver

variable (resolver : Resolver) {key locale entry : String}

/-! ## Misses -/

/-- A miss for a locale in a catalog is a miss for its dialects. -/
theorem lookupIn_eq_none_of_mem {catalog : Catalog} (hentry : entry ∈ Locale.dialects locale)
    (hmiss : lookupIn catalog key locale = none) : lookupIn catalog key entry = none := by
  rw [lookupIn, List.findSome?_eq_none_iff] at hmiss ⊢
  intro dialect hdialect
  exact hmiss dialect ((Locale.dialects_suffix_of_mem hentry).subset hdialect)

/-- A miss for a locale is a miss for its dialects. -/
theorem lookup?_eq_none_of_mem (hentry : entry ∈ Locale.dialects locale)
    (hmiss : resolver.lookup? key locale = none) : resolver.lookup? key entry = none := by
  rw [lookup?, Option.or_eq_none_iff] at hmiss ⊢
  exact ⟨lookupIn_eq_none_of_mem hentry hmiss.1, lookupIn_eq_none_of_mem hentry hmiss.2⟩

/-! ## Searches -/

/-- A locale can be left out of a search when it misses, unless there is a hit before it. -/
theorem firstHit?_remove {before after : List String}
    (hentry : (∀ locale ∈ before, resolver.lookup? key locale = none) →
      resolver.lookup? key entry = none) :
    resolver.firstHit? key (before ++ entry :: after) =
      resolver.firstHit? key (before ++ after) := by
  unfold firstHit?
  rw [List.findSome?_append, List.findSome?_append, List.findSome?_cons]
  cases hbefore : before.findSome? fun locale =>
      (resolver.lookup? key locale).map fun translation => (locale, translation) with
  | some hit => rfl
  | none =>
    rw [hentry (by simpa using hbefore)]
    rfl

/-- What a key is resolved to depends on the fallback setting only when the locale itself
misses, and then only through the first hit for its fallback locales. -/
theorem resolve_fallback_congr {fallback other : Fallback}
    (hsearch : resolver.lookup? key locale = none →
      resolver.firstHit? key (fallback.chainFor locale) =
        resolver.firstHit? key (other.chainFor locale)) :
    { resolver with fallback := fallback }.resolve key locale =
      { resolver with fallback := other }.resolve key locale := by
  have hhits : ∀ setting : Fallback, resolver.lookup? key locale = none →
      { resolver with fallback := setting }.firstHit? key
          ({ resolver with fallback := setting }.standIns locale) =
        resolver.firstHit? key (setting.chainFor locale) := by
    intro setting hmiss
    exact firstHit?_standIns { resolver with fallback := setting } hmiss
  have hlookup : ∀ setting : Fallback,
      { resolver with fallback := setting }.lookup? key locale =
        resolver.lookup? key locale := fun _ => rfl
  rw [resolve, resolve, hlookup fallback, hlookup other]
  cases hfirst : resolver.lookup? key locale with
  | some translation => rfl
  | none => rw [hhits fallback hfirst, hhits other hfirst, hsearch hfirst]

/-! ## Lists of fallback locales -/

/-- An entry of a list of fallback locales is redundant when it is a dialect of the
locale of the request or of an entry before it. -/
def Redundant (locale : String) (before : List String) (entry : String) : Prop :=
  entry ∈ Locale.dialects locale ∨ ∃ earlier ∈ before, entry ∈ Locale.dialects earlier

/-- Without a redundant entry in the list of fallback locales a key is resolved as with
it: the result is the same, and so are the warnings. -/
theorem resolve_redundant (key locale entry : String) (before after : List String)
    (hredundant : Redundant locale before entry) :
    { resolver with fallback := .chain (before ++ entry :: after) }.resolve key locale =
      { resolver with fallback := .chain (before ++ after) }.resolve key locale := by
  apply resolve_fallback_congr
  intro hmiss
  apply firstHit?_remove
  intro hbefore
  rcases hredundant with hdialect | ⟨earlier, hearlier, hdialect⟩
  · exact resolver.lookup?_eq_none_of_mem hdialect hmiss
  · exact resolver.lookup?_eq_none_of_mem hdialect (hbefore earlier hearlier)

/-- A catalog with a greeting in one fallback locale, and a farewell in the base of
another. -/
def farewells : Resolver where
  shared := ⟨[("fr", [("bye", .single (.fixed "Salut"))]),
    ("nl", [("hello", .single (.fixed "Hallo"))])]⟩

theorem resolve_redundant_farewells :
    Redundant "en-GB" ["fr-CA", "en"] "fr" ∧ Redundant "en-GB" ["fr-CA"] "en" ∧
      { farewells with fallback := .chain ["fr-CA", "en", "fr", "nl"] }.resolve "bye" "en-GB" =
        { farewells with fallback := .chain ["fr-CA", "en", "nl"] }.resolve "bye" "en-GB" ∧
      { farewells with fallback := .chain ["fr-CA", "en", "nl"] }.resolve "bye" "en-GB" =
        { farewells with fallback := .chain ["fr-CA", "nl"] }.resolve "bye" "en-GB" ∧
      { farewells with fallback := .chain ["fr-CA", "nl"] }.resolve "bye" "en-GB" =
        ⟨.message (.single (.fixed "Salut")),
          [.missing "bye" "en-GB", .fellBack "bye" "fr-CA"]⟩ := by
  have hlater : Redundant "en-GB" ["fr-CA", "en"] "fr" :=
    Or.inr ⟨"fr-CA", by simp, by decide +kernel⟩
  have hbase : Redundant "en-GB" ["fr-CA"] "en" := Or.inl (by decide +kernel)
  exact ⟨hlater, hbase, farewells.resolve_redundant "bye" "en-GB" "fr" _ ["nl"] hlater,
    farewells.resolve_redundant "bye" "en-GB" "en" _ ["nl"] hbase, by decide +kernel⟩

end Phrasebook.Resolver

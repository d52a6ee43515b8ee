import Phrasebook.Proofs.Locale
import Phrasebook.Resolver

/-!
# Unknown dialects

A dialect that nothing knows, neither a catalog for the key nor a map of the fallback
setting at any depth, is treated as the locale it is a dialect of.  The searches for
the two differ in the locale that the fallback chain passes over, but either one has
missed when the chain is reached, and asking for it again would miss again.

Main results:

- Theorem `chainFor_dialect`: an unknown dialect has the fallback locales of its base.
- Theorem `firstHit?_standIns`: passing over a locale that misses changes no hit.
- Theorem `resolve_unknown_dialect`: a key is resolved for an unknown dialect as for
  its base, and only the warning about the miss names another locale.
-/

namespace Phrasebook

/-! ## Fallback settings -/

namespace Fallback

mutual

/-- The names in the maps of a setting, at any depth. -/
def mapNames : Fallback → List String
  | .locale _ => []
  | .chain _ => []
  | .byLocale settings => settingsNames settings

/-- The names of a map, and those in the maps of its settings. -/
def settingsNames : List (String × Fallback) → List String
  | [] => []
  | (name, setting) :: settings => name :: (mapNames setting ++ settingsNames settings)

end

/-- A name that is not in a map has no setting there. -/
theorem get?_chainsFor_of_not_mem {name : String} (locale : String)
    {settings : List (String × Fallback)} (hname : name ∉ settingsNames settings) :
    Entries.get? (chainsFor locale settings) name = Option.none := by
  induction settings with
  | nil => rfl
  | cons entry settings ih =>
    obtain ⟨other, setting⟩ := entry
    simp only [settingsNames, List.mem_cons, List.mem_append, not_or] at hname
    rw [chainsFor, Entries.get?_cons, if_neg (Ne.symm hname.1)]
    exact ih hname.2.2

section

variable {locale subtag : String}

mutual

/-- An unknown dialect has the fallback locales of its base. -/
theorem chainFor_dialect (hlocale : locale ≠ "") (hsubtag : '-' ∉ subtag.toList) :
    ∀ setting : Fallback, locale ++ "-" ++ subtag ∉ setting.mapNames →
      setting.chainFor (locale ++ "-" ++ subtag) = setting.chainFor locale
  | .locale _, _ => rfl
  | .chain _, _ => rfl
  | .byLocale settings, hunknown => by
      rw [mapNames] at hunknown
      rw [chainFor, chainFor, Locale.dialects_append hlocale hsubtag, List.findSome?_cons,
        get?_chainsFor_of_not_mem _ hunknown,
        chainsFor_dialect hlocale hsubtag settings hunknown]

/-- The same for the settings of a map. -/
theorem chainsFor_dialect (hlocale : locale ≠ "") (hsubtag : '-' ∉ subtag.toList) :
    ∀ settings : List (String × Fallback),
      locale ++ "-" ++ subtag ∉ settingsNames settings →
      chainsFor (locale ++ "-" ++ subtag) settings = chainsFor locale settings
  | [], _ => rfl
  | (name, setting) :: settings, hunknown => by
      simp only [settingsNames, List.mem_cons, List.mem_append, not_or] at hunknown
      rw [chainsFor, chainsFor, chainFor_dialect hlocale hsubtag setting hunknown.2.1,
        chainsFor_dialect hlocale hsubtag settings hunknown.2.2]

end

end

end Fallback

/-! ## Searches -/

/-- The same warning, with another locale in the place of the one that was missed. -/
def Warning.missedAt (locale : String) : Warning → Warning
  | .missing key _ => .missing key locale
  | warning => warning

namespace Resolver

variable (resolver : Resolver) {key locale subtag : String}

/-- A catalog without a translation for a dialect answers with that for its base. -/
theorem lookupIn_dialect {catalog : Catalog} (hlocale : locale ≠ "")
    (hsubtag : '-' ∉ subtag.toList)
    (hunknown : catalog.get? (locale ++ "-" ++ subtag) key = none) :
    lookupIn catalog key (locale ++ "-" ++ subtag) = lookupIn catalog key locale := by
  rw [lookupIn, Locale.dialects_append hlocale hsubtag, List.findSome?_cons, hunknown,
    lookupIn]

/-- Passing over a locale that misses changes no hit. -/
theorem firstHit?_standIns (hmiss : resolver.lookup? key locale = none) :
    resolver.firstHit? key (resolver.standIns locale) =
      resolver.firstHit? key (resolver.fallback.chainFor locale) := by
  rw [standIns]
  induction resolver.fallback.chainFor locale with
  | nil => rfl
  | cons other others ih =>
    unfold firstHit? at ih ⊢
    by_cases hother : other = locale
    · subst other
      rw [List.filter_cons_of_neg (by simp), List.findSome?_cons, hmiss, ih]
      rfl
    · rw [List.filter_cons_of_pos (by simpa using hother), List.findSome?_cons,
        List.findSome?_cons, ih]

/-- A key is resolved for an unknown dialect as it is resolved for its base: the
fallback locales and the result are the same, and so are the warnings but for the
locale that the warning about the miss names. -/
theorem resolve_unknown_dialect (hlocale : locale ≠ "") (hsubtag : '-' ∉ subtag.toList)
    (hown : resolver.own.get? (locale ++ "-" ++ subtag) key = none)
    (hshared : resolver.shared.get? (locale ++ "-" ++ subtag) key = none)
    (hfallback : locale ++ "-" ++ subtag ∉ resolver.fallback.mapNames) :
    resolver.fallback.chainFor (locale ++ "-" ++ subtag) =
        resolver.fallback.chainFor locale ∧
      (resolver.resolve key (locale ++ "-" ++ subtag)).result =
        (resolver.resolve key locale).result ∧
      (resolver.resolve key (locale ++ "-" ++ subtag)).warnings =
        (resolver.resolve key locale).warnings.map
          (.missedAt (locale ++ "-" ++ subtag)) := by
  have hchain := Fallback.chainFor_dialect hlocale hsubtag resolver.fallback hfallback
  have hlookup : resolver.lookup? key (locale ++ "-" ++ subtag) =
      resolver.lookup? key locale := by
    rw [lookup?, lookupIn_dialect hlocale hsubtag hown,
      lookupIn_dialect hlocale hsubtag hshared, lookup?]
  refine ⟨hchain, ?_⟩
  unfold resolve
  rw [hlookup]
  cases hfirst : resolver.lookup? key locale with
  | some translation => exact ⟨rfl, rfl⟩
  | none =>
    rw [resolver.firstHit?_standIns hfirst, resolver.firstHit?_standIns (hlookup.trans hfirst),
      hchain]
    cases resolver.firstHit? key (resolver.fallback.chainFor locale) with
    | some hit =>
      refine ⟨rfl, ?_⟩
      simp only [List.map_append]
      split <;> split <;> rfl
    | none =>
      refine ⟨rfl, ?_⟩
      simp only
      split <;> rfl

/-- A greeting in English alone, and a map of fallback locales inside another one that
names both a locale and its dialect again. -/
def nestedFallback : Resolver where
  shared := ⟨[("en", [("hello", .single (.fixed "Hello"))])]⟩
  fallback := .byLocale
    [("de", .byLocale [("de-CH", .locale "fr"), ("de", .chain ["de", "de-AT", "en"])])]

theorem resolve_unknown_dialect_nestedFallback :
    ("de" ≠ "" ∧ '-' ∉ "AT".toList ∧
      nestedFallback.own.get? ("de" ++ "-" ++ "AT") "hello" = none ∧
      nestedFallback.shared.get? ("de" ++ "-" ++ "AT") "hello" = none ∧
      "de" ++ "-" ++ "AT" ∉ nestedFallback.fallback.mapNames) ∧
    nestedFallback.fallback.chainFor ("de" ++ "-" ++ "AT") =
      nestedFallback.fallback.chainFor "de" ∧
    (nestedFallback.resolve "hello" ("de" ++ "-" ++ "AT")).result =
      .message (.single (.fixed "Hello")) ∧
    (nestedFallback.resolve "hello" ("de" ++ "-" ++ "AT")).warnings =
      [.missing "hello" "de-AT", .fellBack "hello" "en"] := by
  have hlocale : "de" ≠ "" := by decide
  have hsubtag : '-' ∉ "AT".toList := by decide
  have hown : nestedFallback.own.get? ("de" ++ "-" ++ "AT") "hello" = none := by decide
  have hshared : nestedFallback.shared.get? ("de" ++ "-" ++ "AT") "hello" = none := by decide
  have hfallback : "de" ++ "-" ++ "AT" ∉ nestedFallback.fallback.mapNames := by decide
  obtain ⟨hchain, hresult, hwarnings⟩ :=
    nestedFallback.resolve_unknown_dialect hlocale hsubtag hown hshared hfallback
  refine ⟨⟨hlocale, hsubtag, hown, hshared, hfallback⟩, hchain, ?_, ?_⟩
  · rw [hresult]
    decide +kernel
  · rw [hwarnings]
    decide +kernel

end Resolver

end Phrasebook

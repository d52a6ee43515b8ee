import Phrasebook.Fallback
import Phrasebook.Proofs.Locale

/-!
# Nested fallback settings

A map of fallback settings can have maps inside.  In each of them the longest dialect of
the locale that is there decides, and a map inside is asked about the locale as a whole,
not about the dialect that led to it.  The way through the maps ends at a setting without
a map, which names its locales, or at a map that knows no dialect of the locale, which
names none.

Main results:

- Relation `Fallback.Names`: the locales that a setting names, by the way to them.
- Theorem `names_iff`: there is one such way, and its end is what is computed.
-/

namespace Phrasebook.Fallback

variable {locale : String} {settings : List (String × Fallback)}

/-- A setting of a map decides about a locale. -/
structure Decides (locale : String) (settings : List (String × Fallback))
    (dialect : String) (setting : Fallback) : Prop where
  /-- It stands under a dialect of the locale. -/
  mem_dialects : dialect ∈ Locale.dialects locale
  /-- It is what the map has there. -/
  get?_eq : Entries.get? settings dialect = some setting
  /-- The map has nothing under a longer dialect. -/
  unknown : ∀ longer ∈ Locale.dialects locale, dialect.length < longer.length →
    Entries.get? settings longer = Option.none

/-- The locales that a setting names for a locale. -/
inductive Names (locale : String) : Fallback → List String → Prop where
  /-- A single locale is named. -/
  | locale (name : String) : Names locale (.locale name) [name]
  /-- The locales of a list are named. -/
  | chain (names : List String) : Names locale (.chain names) names
  /-- A map names what the setting in it that decides names. -/
  | decided {settings : List (String × Fallback)} {dialect : String} {setting : Fallback}
      {names : List String} (hdecides : Decides locale settings dialect setting)
      (hnames : Names locale setting names) : Names locale (.byLocale settings) names
  /-- A map without any dialect of the locale names nothing. -/
  | unknown {settings : List (String × Fallback)}
      (hunknown : ∀ dialect ∈ Locale.dialects locale,
        Entries.get? settings dialect = Option.none) : Names locale (.byLocale settings) []

/-! ## One map -/

/-- The setting that decides says which locales a map names. -/
theorem Decides.chainFor_eq {dialect : String} {setting : Fallback}
    (hdecides : Decides locale settings dialect setting) :
    chainFor locale (.byLocale settings) = chainFor locale setting := by
  have hfound : (Locale.dialects locale).findSome? (Entries.get? (chainsFor locale settings)) =
      some (chainFor locale setting) := by
    rw [Locale.findSome?_dialects_eq_some_iff]
    refine ⟨dialect, hdecides.mem_dialects, ?_, fun longer hmem hlength => ?_⟩
    · rw [get?_chainsFor, hdecides.get?_eq, Option.map_some]
    · rw [get?_chainsFor, hdecides.unknown longer hmem hlength, Option.map_none]
  rw [chainFor, hfound, Option.getD_some]

/-- A map without any dialect of the locale names nothing. -/
theorem chainFor_of_unknown
    (hunknown : ∀ dialect ∈ Locale.dialects locale,
      Entries.get? settings dialect = Option.none) :
    chainFor locale (.byLocale settings) = [] := by
  have hmissed : (Locale.dialects locale).findSome?
      (Entries.get? (chainsFor locale settings)) = Option.none := by
    rw [List.findSome?_eq_none_iff]
    intro dialect hdialect
    rw [get?_chainsFor, hunknown dialect hdialect, Option.map_none]
  rw [chainFor, hmissed, Option.getD_none]

/-- In a map there is a setting that decides, or no dialect of the locale is there. -/
theorem exists_decides_or_unknown (locale : String) (settings : List (String × Fallback)) :
    (∃ dialect setting, Decides locale settings dialect setting) ∨
      ∀ dialect ∈ Locale.dialects locale, Entries.get? settings dialect = Option.none := by
  cases hfound : (Locale.dialects locale).findSome? (Entries.get? settings) with
  | some setting =>
    obtain ⟨dialect, hdialect, hget, hlonger⟩ :=
      Locale.findSome?_dialects_eq_some_iff.mp hfound
    exact Or.inl ⟨dialect, setting, hdialect, hget, hlonger⟩
  | none => exact Or.inr (List.findSome?_eq_none_iff.mp hfound)

/-! ## The way through the maps -/

mutual

/-- A setting names the locales that are computed for it. -/
theorem names_chainFor (locale : String) :
    ∀ setting : Fallback, Names locale setting (chainFor locale setting)
  | .locale name => .locale name
  | .chain names => .chain names
  | .byLocale settings => by
      rcases exists_decides_or_unknown locale settings with
        ⟨dialect, setting, hdecides⟩ | hunknown
      · rw [hdecides.chainFor_eq]
        exact .decided hdecides (names_of_get? locale settings hdecides.get?_eq)
      · rw [chainFor_of_unknown hunknown]
        exact .unknown hunknown

/-- The same for each setting of a map. -/
theorem names_of_get? (locale : String) :
    ∀ (settings : List (String × Fallback)) {name : String} {setting : Fallback},
      Entries.get? settings name = some setting →
        Names locale setting (chainFor locale setting)
  | [], _, _, hget => by simp at hget
  | (other, first) :: settings, name, setting, hget => by
      rw [Entries.get?_cons] at hget
      split at hget
      · cases hget
        exact names_chainFor locale first
      · exact names_of_get? locale settings hget

end

/-- For every locale a setting names one list of locales: that which is computed. -/
theorem names_iff {setting : Fallback} {names : List String} :
    Names locale setting names ↔ chainFor locale setting = names := by
  constructor
  · intro hnames
    induction hnames with
    | locale name => rw [chainFor]
    | chain names => rw [chainFor]
    | decided hdecides _ ih => rw [hdecides.chainFor_eq, ih]
    | unknown hunknown => exact chainFor_of_unknown hunknown
  · rintro rfl
    exact names_chainFor locale setting

/-- A map inside is asked about the locale as a whole. -/
example :
    chainFor "de-CH" (.byLocale
      [("de", .byLocale [("de", .locale "en"), ("de-CH", .chain ["fr", "it"])])]) =
      ["fr", "it"] := by
  decide +kernel

end Phrasebook.Fallback

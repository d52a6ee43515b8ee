import Phrasebook.Proofs.Resolver.Chains
import Phrasebook.Resolver

/-!
# The order of a search

Resolving a key is a search through places: for each locale that is asked for, its
dialects in the catalog of its own and then its dialects in the shared one.  The
locale of the request is asked for first, and then the locales that stand in for it,
without asking for the locale of the request again.

Main results:

- Theorem `asked_of_names`: the locales that are asked for are that of the request and,
  without it, those that the fallback setting names.
- Theorem `lookup?_eq_findSome?`: a look-up for one locale goes through its places.
- Theorem `result_resolve`: a key is resolved to what stands at the first place with
  a translation.
- Theorem `warnings_resolve`: a search warns about a miss for the locale of the
  request and about the locale that helps out, and about nothing else.
- Theorem `resolve_order`: both together, with the same result whatever is warned
  about.
-/

namespace Phrasebook.Resolver

variable (resolver : Resolver) (key locale : String)

/-! ## Places -/

/-- The places for one locale, each a catalog with the dialect to look under. -/
def places : List (Catalog × String) :=
  (Locale.dialects locale).map (resolver.own, ·) ++
    (Locale.dialects locale).map (resolver.shared, ·)

/-- The locales that are asked for, that of the request first. -/
def asked : List String :=
  locale :: (resolver.fallback.chainFor locale).filter (· ≠ locale)

/-- All places, in the order in which they are tried. -/
def allPlaces : List (Catalog × String) :=
  (resolver.asked locale).flatMap resolver.places

/-- What stands at a place under a key. -/
def found (place : Catalog × String) : Option Translation :=
  place.1.get? place.2 key

/-- Whether one of the places for a locale has a translation. -/
def hits : Bool :=
  (resolver.places locale).any fun place => (found key place).isSome

/-- After the locale of the request those are asked for that the fallback setting names
for it, except itself. -/
theorem asked_of_names {names : List String} (hnames : resolver.fallback.Names locale names) :
    resolver.asked locale = locale :: names.filter (· ≠ locale) := by
  rw [asked, Fallback.names_iff.mp hnames]

/-! ## First hits in lists -/

/-- The first hit in several lists that are gone through one after another. -/
theorem findSome?_flatMap {α β γ : Type} (f : β → Option γ) (lists : α → List β)
    (values : List α) :
    (values.flatMap lists).findSome? f = values.findSome? fun a => (lists a).findSome? f := by
  induction values with
  | nil => rfl
  | cons value values ih =>
    rw [List.flatMap_cons, List.findSome?_append, List.findSome?_cons, ih]
    cases (lists value).findSome? f <;> rfl

/-- A first hit with its origin is the first hit. -/
theorem findSome?_origin_snd {α β : Type} (f : α → Option β) (values : List α) :
    (values.findSome? fun a => (f a).map fun b => (a, b)).map Prod.snd =
      values.findSome? f := by
  induction values with
  | nil => rfl
  | cons value values ih =>
    rw [List.findSome?_cons, List.findSome?_cons]
    cases f value with
    | none => exact ih
    | some image => rfl

/-- The origin of a first hit is the first value with an image. -/
theorem findSome?_origin_fst {α β : Type} (f : α → Option β) (values : List α) :
    (values.findSome? fun a => (f a).map fun b => (a, b)).map Prod.fst =
      values.find? fun a => (f a).isSome := by
  induction values with
  | nil => rfl
  | cons value values ih =>
    rw [List.findSome?_cons, List.find?_cons]
    cases f value with
    | none => exact ih
    | some image => rfl

/-! ## One locale -/

/-- A look-up for one locale goes through its places. -/
theorem lookup?_eq_findSome? :
    resolver.lookup? key locale = (resolver.places locale).findSome? (found key) := by
  rw [places, List.findSome?_append, List.findSome?_map, List.findSome?_map]
  rfl

/-- A look-up for a locale succeeds when one of its places has a translation. -/
theorem isSome_lookup? : (resolver.lookup? key locale).isSome = resolver.hits key locale := by
  rw [lookup?_eq_findSome?, hits, List.isSome_findSome?]

/-! ## Several locales -/

/-- The first hit for several locales is at the first of their places with one. -/
theorem firstHit?_map_snd (locales : List String) :
    (resolver.firstHit? key locales).map Prod.snd =
      (locales.flatMap resolver.places).findSome? (found key) := by
  rw [firstHit?, findSome?_origin_snd, findSome?_flatMap]
  exact congrArg (locales.findSome? ·) (funext (resolver.lookup?_eq_findSome? key))

/-- The first hit for several locales comes from the first that has one. -/
theorem firstHit?_map_fst (locales : List String) :
    (resolver.firstHit? key locales).map Prod.fst = locales.find? (resolver.hits key) := by
  rw [firstHit?, findSome?_origin_fst]
  exact congrArg (locales.find? ·) (funext (resolver.isSome_lookup? key))

/-! ## Resolving -/

/-- A key is resolved to what stands at the first place with a translation, and
stands for itself when there is none. -/
theorem result_resolve :
    (resolver.resolve key locale).result =
      match (resolver.allPlaces locale).findSome? (found key) with
      | some translation => .message translation
      | none => .key key := by
  have hplaces : (resolver.allPlaces locale).findSome? (found key) =
      (resolver.lookup? key locale).or
        ((resolver.firstHit? key (resolver.standIns locale)).map Prod.snd) := by
    rw [firstHit?_map_snd, lookup?_eq_findSome?, allPlaces, asked, List.flatMap_cons,
      List.findSome?_append]
    rfl
  rw [hplaces, resolve]
  cases resolver.lookup? key locale with
  | some translation => rfl
  | none =>
    cases resolver.firstHit? key (resolver.standIns locale) with
    | some hit => rfl
    | none => rfl

/-- When the locale of the request has no hit, the first locale with one is among
those that stand in for it. -/
theorem find?_asked_of_miss (hmiss : resolver.hits key locale = false) :
    (resolver.asked locale).find? (resolver.hits key) =
      (resolver.firstHit? key (resolver.standIns locale)).map Prod.fst := by
  rw [firstHit?_map_fst, asked, List.find?_cons, hmiss]
  rfl

/-- The warnings to expect of a search: none when the locale of the request has a hit, and
otherwise one for it and one for the first locale that has a hit, each only when it is
wanted. -/
def expectedWarnings : List Warning :=
  if resolver.hits key locale then []
  else
    (if resolver.warnOn.miss then [.missing key locale] else []) ++
      if resolver.warnOn.fallback then
        ((resolver.asked locale).find? (resolver.hits key)).toList.map (.fellBack key)
      else []

/-- Resolving a key raises exactly the warnings that are expected. -/
theorem warnings_resolve :
    (resolver.resolve key locale).warnings = resolver.expectedWarnings key locale := by
  have hlookup := resolver.isSome_lookup? key locale
  unfold resolve expectedWarnings
  cases hfirst : resolver.lookup? key locale with
  | some translation =>
    rw [hfirst] at hlookup
    rw [← hlookup]
    rfl
  | none =>
    rw [hfirst] at hlookup
    rw [resolver.find?_asked_of_miss key locale hlookup.symm, ← hlookup]
    cases resolver.firstHit? key (resolver.standIns locale) with
    | some hit => rfl
    | none => simp

/-- There are never more than two warnings. -/
theorem length_expectedWarnings_le : (resolver.expectedWarnings key locale).length ≤ 2 := by
  unfold expectedWarnings
  split
  · simp
  · have hmissed : (if resolver.warnOn.miss then [Warning.missing key locale]
        else []).length ≤ 1 := by
      split <;> simp
    have hused : (if resolver.warnOn.fallback then
        ((resolver.asked locale).find? (resolver.hits key)).toList.map (Warning.fellBack key)
        else []).length ≤ 1 := by
      split
      · rw [List.length_map]
        exact Option.length_toList_le
      · simp
    rw [List.length_append]
    omega

/-- What is warned about does not change what is found. -/
theorem result_resolve_warnOn (warnOn : WarnOn) :
    ({ resolver with warnOn := warnOn }.resolve key locale).result =
      (resolver.resolve key locale).result := by
  rw [result_resolve, result_resolve]
  rfl

/-- A key is resolved to a translation exactly when that stands at a place and no place
before it has one, and stands for itself exactly when no place has one.  A hit for
the locale of the request raises no warning.  A miss raises a warning of its own and
one that names the first locale with a hit, each only when it is wanted.  The wanted
warnings do not change what is found. -/
theorem resolve_order :
    (∀ translation, (resolver.resolve key locale).result = .message translation ↔
      ∃ before place after, resolver.allPlaces locale = before ++ place :: after ∧
        found key place = some translation ∧ ∀ earlier ∈ before, found key earlier = none) ∧
    ((resolver.resolve key locale).result = .key key ↔
      ∀ place ∈ resolver.allPlaces locale, found key place = none) ∧
    (resolver.resolve key locale).warnings = resolver.expectedWarnings key locale ∧
    (resolver.resolve key locale).warnings.length ≤ 2 ∧
    ∀ warnOn : WarnOn, ({ resolver with warnOn := warnOn }.resolve key locale).result =
      (resolver.resolve key locale).result := by
  refine ⟨?_, ?_, resolver.warnings_resolve key locale, ?_,
    resolver.result_resolve_warnOn key locale⟩
  · intro translation
    rw [← List.findSome?_eq_some_iff, result_resolve]
    cases (resolver.allPlaces locale).findSome? (found key) <;> simp
  · rw [← List.findSome?_eq_none_iff, result_resolve]
    cases (resolver.allPlaces locale).findSome? (found key) <;> simp
  · rw [warnings_resolve]
    exact resolver.length_expectedWarnings_le key locale

/-- A base locale in the shared catalog comes before a fallback in its own. -/
example :
    (resolve
      { own := ⟨[("fr", [("greeting", .single (.fixed "Salut"))])]⟩
        shared := ⟨[("en", [("greeting", .single (.fixed "Hello"))])]⟩
        fallback := .locale "fr" } "greeting" "en-US").result =
      .message (.single (.fixed "Hello")) := by
  decide +kernel

end Phrasebook.Resolver

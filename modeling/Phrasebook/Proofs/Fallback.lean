import Phrasebook.Options.Reader
import Phrasebook.Proofs.Compile.Backends
import Phrasebook.Proofs.Json.Names

/-!
# Fallback settings in JSON

A fallback setting is written in JSON without saying which form it has.  The form is told by the
kind of the value: a string, an array, or an object.  So no value has two forms, not even an empty
array or an empty object, and each setting is read back from the value that it is written as.

Main results:

- Definition `Json.IsFallback`: the values that have the shape of a setting.
- Theorem `Fallback.ofJson?_eq_some_iff`: a setting is read from the one value that it is written
  as.
- Theorem `Fallback.isSome_ofJson?_iff`: a setting is read from the values of this shape.
- Theorem `Fallback.ofJson?_eq_findSome?`: a value is read as the first form that it has.
- Theorem `fallback_roundtrip`: all of this together, for values and for the settings of a text.
-/

namespace Phrasebook

/-- A value has the shape of a fallback setting. -/
inductive Json.IsFallback : Json → Prop where
  | locale (name : String) : IsFallback (.string name)
  /-- All items are strings. -/
  | chain {items : List Json} (hitems : ∀ item ∈ items, ∃ name, item = .string name) :
      IsFallback (.array items)
  /-- All values have the shape of a setting themselves. -/
  | byLocale {entries : List (String × Json)} (hentries : ∀ entry ∈ entries, IsFallback entry.2) :
      IsFallback (.object entries)

namespace Fallback

/-! ## Reading what was written -/

/-- Only a string has a text. -/
theorem text?_eq_some_iff {value : Json} {text : String} :
    text? value = some text ↔ value = .string text := by
  cases value <;> simp [text?]

/-- The texts of an array of strings are these strings. -/
theorem mapM_text?_eq_some_iff {items : List Json} {names : List String} :
    items.mapM text? = some names ↔ items = names.map .string := by
  induction items generalizing names with
  | nil => cases names <;> simp
  | cons item items ih =>
    cases names with
    | nil => simp [List.mapM_cons, Option.bind_eq_some_iff]
    | cons name names =>
      simp only [List.mapM_cons, List.map_cons, List.cons.injEq, ← ih, ← text?_eq_some_iff]
      simp [Option.bind_eq_some_iff]

mutual

/-- What a setting is read from is what it is written as. -/
theorem toJson_of_ofJson? : ∀ (value : Json) (setting : Fallback),
    ofJson? value = some setting → setting.toJson = value
  | .string name, setting, hread => by
      cases hread
      rfl
  | .array items, setting, hread => by
      obtain ⟨names, hnames, rfl⟩ := Option.map_eq_some_iff.mp hread
      rw [toJson, mapM_text?_eq_some_iff.mp hnames]
  | .object entries, setting, hread => by
      obtain ⟨settings, hsettings, rfl⟩ := Option.map_eq_some_iff.mp hread
      rw [toJson, entriesToJson_of_entriesOfJson? entries settings hsettings]
  | .scalar value, setting, hread => by cases hread

/-- The same for the entries of an object, with their names. -/
theorem entriesToJson_of_entriesOfJson? :
    ∀ (entries : List (String × Json)) (settings : List (String × Fallback)),
      entriesOfJson? entries = some settings → entriesToJson settings = entries
  | [], settings, hread => by
      cases hread
      rfl
  | (name, value) :: entries, settings, hread => by
      obtain ⟨setting, hsetting, hrest⟩ := Option.bind_eq_some_iff.mp hread
      obtain ⟨others, hothers, hsettings⟩ := Option.bind_eq_some_iff.mp hrest
      obtain rfl := Option.some.inj hsettings
      rw [entriesToJson, toJson_of_ofJson? value setting hsetting,
        entriesToJson_of_entriesOfJson? entries others hothers]

end

mutual

/-- A setting is read back from what it is written as. -/
theorem ofJson?_toJson : ∀ setting : Fallback, ofJson? setting.toJson = some setting
  | .locale name => rfl
  | .chain names => by
      rw [toJson, ofJson?, mapM_text?_eq_some_iff.mpr rfl]
      rfl
  | .byLocale settings => by
      rw [toJson, ofJson?, entriesOfJson?_entriesToJson settings]
      rfl

/-- The same for the settings of a map, with their names. -/
theorem entriesOfJson?_entriesToJson :
    ∀ settings : List (String × Fallback),
      entriesOfJson? (entriesToJson settings) = some settings
  | [] => rfl
  | (name, setting) :: settings => by
      rw [entriesToJson, entriesOfJson?, ofJson?_toJson setting,
        entriesOfJson?_entriesToJson settings]
      rfl

end

/-- A setting is read from the one value that it is written as. -/
theorem ofJson?_eq_some_iff {value : Json} {setting : Fallback} :
    ofJson? value = some setting ↔ setting.toJson = value := by
  constructor
  · exact toJson_of_ofJson? value setting
  · rintro rfl
    exact ofJson?_toJson setting

/-! ## Shapes -/

/-- Settings are read from entries if one is read from each of them. -/
theorem isSome_entriesOfJson?_iff {entries : List (String × Json)} :
    (entriesOfJson? entries).isSome ↔ ∀ entry ∈ entries, (ofJson? entry.2).isSome := by
  induction entries with
  | nil => simp [entriesOfJson?]
  | cons entry entries ih =>
    rw [List.forall_mem_cons, ← ih, entriesOfJson?]
    cases ofJson? entry.2 with
    | none => simp
    | some setting => cases entriesOfJson? entries <;> simp

mutual

/-- What a setting is written as has the shape of one. -/
theorem isFallback_toJson : ∀ setting : Fallback, setting.toJson.IsFallback
  | .locale name => .locale name
  | .chain names => by
      refine .chain fun item hitem => ?_
      obtain ⟨name, -, rfl⟩ := List.mem_map.mp hitem
      exact ⟨name, rfl⟩
  | .byLocale settings => .byLocale (isFallback_entriesToJson settings)

/-- The same for the settings of a map. -/
theorem isFallback_entriesToJson : ∀ settings : List (String × Fallback),
    ∀ entry ∈ entriesToJson settings, entry.2.IsFallback
  | [] => by simp [entriesToJson]
  | (name, setting) :: settings => by
      rw [entriesToJson, List.forall_mem_cons]
      exact ⟨isFallback_toJson setting, isFallback_entriesToJson settings⟩

end

/-- A setting is read from a value if it has the shape of one. -/
theorem isSome_ofJson?_iff {value : Json} : (ofJson? value).isSome ↔ value.IsFallback := by
  constructor
  · intro hsome
    obtain ⟨setting, hsetting⟩ := Option.isSome_iff_exists.mp hsome
    rw [← ofJson?_eq_some_iff.mp hsetting]
    exact isFallback_toJson setting
  · intro hshape
    induction hshape with
    | locale name => rfl
    | @chain items hitems =>
      have hnames : items.mapM text? ≠ Option.none := by
        intro hnone
        obtain ⟨item, hitem, htext⟩ := mapM_eq_none_iff.mp hnone
        obtain ⟨name, rfl⟩ := hitems item hitem
        cases htext
      rw [ofJson?, Option.isSome_map, Option.isSome_iff_ne_none]
      exact hnames
    | byLocale hentries ih =>
      rw [ofJson?, Option.isSome_map, isSome_entriesOfJson?_iff]
      exact ih

/-! ## Forms -/

/-- A value as a single locale. -/
def localeForm? (value : Json) : Option Fallback :=
  (text? value).map .locale

/-- A value as a chain of locales. -/
def chainForm? : Json → Option Fallback
  | .array items => (items.mapM text?).map .chain
  | _ => Option.none

/-- A value as a map of settings. -/
def mapForm? : Json → Option Fallback
  | .object entries => (entriesOfJson? entries).map .byLocale
  | _ => Option.none

/-- The forms of a setting, in the order in which they are tried. -/
def forms : List (Json → Option Fallback) :=
  [localeForm?, chainForm?, mapForm?]

/-- A value is read as the first form that it has. -/
theorem ofJson?_eq_findSome? (value : Json) :
    ofJson? value = forms.findSome? fun form => form value := by
  cases value with
  | scalar value => rfl
  | string name => rfl
  | array items =>
    rw [ofJson?, forms, List.findSome?_cons, List.findSome?_cons, localeForm?, chainForm?]
    cases items.mapM text? <;> rfl
  | object entries =>
    rw [ofJson?, forms, List.findSome?_cons, List.findSome?_cons, List.findSome?_cons, mapForm?]
    cases entriesOfJson? entries <;> rfl

/-- A value has one form at most. -/
theorem form_eq_none_or {form : Json → Option Fallback} (hform : form ∈ forms) (value : Json) :
    form value = Option.none ∨ form value = ofJson? value := by
  simp only [forms, List.mem_cons, List.not_mem_nil, or_false] at hform
  rcases hform with rfl | rfl | rfl
  all_goals
    cases value <;> simp [localeForm?, chainForm?, mapForm?, ofJson?, text?]

/-! ## Settings in texts -/

theorem mem_uniqueEntries {entries : List (String × Json)} {entry : String × Json}
    (hentry : entry ∈ Json.uniqueEntries entries) :
    ∃ value, (entry.1, value) ∈ entries ∧ entry.2 = value.unique := by
  induction entries with
  | nil => cases hentry
  | cons first entries ih =>
    obtain ⟨name, value⟩ := first
    rcases List.mem_cons.mp hentry with rfl | hentry
    · exact ⟨value, List.mem_cons_self, rfl⟩
    · obtain ⟨found, hfound, hvalue⟩ := ih hentry
      exact ⟨found, List.mem_cons_of_mem _ hfound, hvalue⟩

/-- Strings are as they were with unique names. -/
theorem uniqueItems_eq_self {items : List Json}
    (hitems : ∀ item ∈ items, ∃ name, item = .string name) : Json.uniqueItems items = items := by
  induction items with
  | nil => rfl
  | cons item items ih =>
    rw [List.forall_mem_cons] at hitems
    obtain ⟨⟨name, rfl⟩, hothers⟩ := hitems
    rw [Json.uniqueItems, Json.unique, ih hothers]

/-- A value keeps the shape of a setting when its names are made unique. -/
theorem isFallback_unique {value : Json} (hvalue : value.IsFallback) :
    value.unique.IsFallback := by
  induction hvalue with
  | locale name => exact .locale name
  | chain hitems =>
    rw [Json.unique, uniqueItems_eq_self hitems]
    exact .chain hitems
  | byLocale hentries ih =>
    rw [Json.unique]
    refine .byLocale fun entry hentry => ?_
    obtain ⟨value, hmem, hvalue⟩ := mem_uniqueEntries (Entries.mem_of_mem_ofList hentry)
    exact hvalue ▸ ih _ hmem

/-- A text gives a setting if its value has the shape of one, also where a later entry of the
same name counts; the setting is written with each name once. -/
theorem fallbackOf?_eq_some_iff {value : Json} {setting : Fallback} :
    Options.fallbackOf? value = some setting ↔
      value.IsFallback ∧ setting.toJson = value.unique := by
  rw [Options.fallbackOf?, Option.bind_eq_some_iff, ← isSome_ofJson?_iff,
    Option.isSome_iff_exists, ← ofJson?_eq_some_iff, exists_and_right]

end Fallback

/-- A value is read as a fallback setting exactly if it is a string, an array of strings, or an
object of such values, and a setting is read exactly from the value that it is written as, with its
names in order.  The forms are tried one after the other, and no value has two of them.  In a text
all entries have to be settings, also those that a later one of the same name replaces. -/
theorem fallback_roundtrip :
    (∀ value : Json, (Fallback.ofJson? value).isSome ↔ value.IsFallback) ∧
    (∀ (value : Json) (setting : Fallback),
      Fallback.ofJson? value = some setting ↔ setting.toJson = value) ∧
    (∀ value : Json, Fallback.ofJson? value =
        Fallback.forms.findSome? (fun form => form value) ∧
      ∀ form ∈ Fallback.forms, form value = none ∨ form value = Fallback.ofJson? value) ∧
    ∀ value : Json, ((Options.fallbackOf? value).isSome ↔ value.IsFallback) ∧
      ∀ setting : Fallback, Options.fallbackOf? value = some setting ↔
        value.IsFallback ∧ setting.toJson = value.unique := by
  refine ⟨fun value => Fallback.isSome_ofJson?_iff,
    fun value setting => Fallback.ofJson?_eq_some_iff,
    fun value => ⟨Fallback.ofJson?_eq_findSome? value,
      fun form hform => Fallback.form_eq_none_or hform value⟩,
    fun value => ⟨?_, fun setting => Fallback.fallbackOf?_eq_some_iff⟩⟩
  constructor
  · intro hsome
    obtain ⟨setting, hsetting⟩ := Option.isSome_iff_exists.mp hsome
    exact (Fallback.fallbackOf?_eq_some_iff.mp hsetting).1
  · intro hvalue
    have hunique := Fallback.isSome_ofJson?_iff.mpr (Fallback.isFallback_unique hvalue)
    obtain ⟨setting, hsetting⟩ := Option.isSome_iff_exists.mp hunique
    rw [Fallback.fallbackOf?_eq_some_iff.mpr ⟨hvalue, Fallback.ofJson?_eq_some_iff.mp hsetting⟩]
    rfl

end Phrasebook

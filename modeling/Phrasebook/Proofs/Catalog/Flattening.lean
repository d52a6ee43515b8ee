import Phrasebook.Catalog
import Phrasebook.Proofs.Compile.Backends
import Phrasebook.Proofs.Json.Names

/-!
# Catalogs of documents

A catalog is filled from a document whose first level names locales.  Below a locale
the leaves that are messages are written one after another, in the order of the
document, under their names joined with points.  Different nestings can lead to one
key; then the last leaf counts, at the place of the first.

The names in each object of a document are unique, as they are in every value that is
read.

Main results:

- Theorem `flattenEntries_trees`: flattening the tree of a document gives the
  messages among its leaves.
- Theorem `fill_trees`: a catalog is filled with the messages of every locale,
  up to the first locale that is no object.
- Theorem `ofJson_flattens`: the catalog of a document by its keys and locales.
-/

namespace Phrasebook

/-! ## The messages of a document -/

namespace Json

mutual

/-- The parts of a document that are no objects, in order, each with the names that
lead to it through objects alone. -/
def leaves : Json → List (List String × Json)
  | .scalar value => [([], .scalar value)]
  | .string text => [([], .string text)]
  | .array items => [([], .array items)]
  | .object entries => entriesLeaves entries

/-- The leaves of the values of an object, with their names in front. -/
def entriesLeaves : List (String × Json) → List (List String × Json)
  | [] => []
  | (name, value) :: entries =>
      (leaves value).map (fun leaf => (name :: leaf.1, leaf.2)) ++ entriesLeaves entries

end

/-- The phrase of a template with one case. -/
def phrase? : Json → Option Phrase
  | .string template =>
      match (Template.plan template).result with
      | .single phrase => some phrase
      | .plural _ => none
  | _ => none

/-- The translation of a leaf that is a message.  Templates are, and so are arrays of
templates with one case each, at least one of them. -/
def translation? : Json → Option Translation
  | .string template => some (Template.plan template).result
  | .array items => if items.isEmpty then none else (items.mapM phrase?).map .plural
  | _ => none

/-- A leaf below a path as an entry of a catalog, if it is a message. -/
def messageBelow (path : List String) (leaf : List String × Json) :
    Option (String × Translation) :=
  leaf.2.translation?.map fun translation => (".".intercalate (path ++ leaf.1), translation)

/-- The leaves of a document that are messages, in order, each under the names that
lead to it, joined with points. -/
def messages (value : Json) : List (String × Translation) :=
  value.leaves.filterMap (messageBelow [])

/-! ## What leaves are made into -/

/-- A template with one case has the phrase of its message. -/
theorem phrase?_eq_map (value : Json) :
    value.phrase? = value.message?.map fun message => message.plan.result := by
  cases value with
  | string template =>
    rw [phrase?, message?, Template.plan]
    cases Template.parse template with
    | single message => rfl
    | plural messages => rfl
  | scalar value => rfl
  | array items => rfl
  | object entries => rfl

theorem mapM_phrase? (items : List Json) :
    items.mapM phrase? =
      (items.mapM message?).map fun messages => messages.map fun m => m.plan.result := by
  induction items with
  | nil => rfl
  | cons item items ih =>
    rw [List.mapM_cons, List.mapM_cons, ih, phrase?_eq_map]
    cases item.message? with
    | none => rfl
    | some message => cases items.mapM message? <;> rfl

/-- The translation of a leaf is what it is made into in memory. -/
theorem cases?_emitValue (value : Json) :
    (treeBackend.emitValue value).result.cases? = value.translation? := by
  cases value with
  | scalar value => rfl
  | string template =>
    rw [Backend.emitValue, emitCases_treeBackend]
    rfl
  | array items =>
    rw [Backend.emitValue, translation?, mapM_phrase?, group?]
    cases items.isEmpty with
    | true => rfl
    | false =>
      cases items.mapM message? with
      | none => rfl
      | some messages =>
        simp [Backend.emitCases, Reported.all, Reported.map, treeBackend, Tree.cases?,
          Message.plan, Function.comp_def]
  | object entries => rfl

/-- Only objects are of their kind. -/
theorem kind_eq_object_iff {value : Json} :
    value.kind = .object ↔ ∃ entries, value = .object entries := by
  cases value with
  | scalar value => cases value <;> simp [kind]
  | string template => simp [kind]
  | array items => simp [kind]
  | object entries => simp [kind]

/-- Only objects are made into maps. -/
theorem entries?_emitValue {value : Json} (hunfit : value.kind ≠ .object) :
    (treeBackend.emitValue value).result.entries? = none := by
  cases value with
  | scalar value => rfl
  | string template =>
    rw [Backend.emitValue, emitCases_treeBackend]
    rfl
  | array items =>
    rw [Backend.emitValue]
    split <;> rfl
  | object entries => exact absurd rfl hunfit

/-- What the values of an object are made into in memory, with their names. -/
def trees (entries : List (String × Json)) : List (String × Tree Phrase) :=
  entries.map fun entry => (entry.1, (treeBackend.emitValue entry.2).result)

theorem trees_cons (name : String) (value : Json) (entries : List (String × Json)) :
    trees ((name, value) :: entries) =
      (name, (treeBackend.emitValue value).result) :: trees entries := rfl

/-- An object with unique names is made into a map with these names. -/
theorem result_emitValue_object {entries : List (String × Json)}
    (hnames : (Entries.keys entries).Nodup) :
    (treeBackend.emitValue (.object entries)).result = .map (trees entries) := by
  have htrees : (Entries.keys (trees entries)).Nodup := by
    simpa [trees, Entries.keys, Function.comp_def] using hnames
  rw [Backend.emitValue, Backend.emitEntries_eq_map, ← Entries.ofList_eq_self htrees]
  simp only [Reported.allEntries, Reported.result_map, List.map_map, Function.comp_def,
    treeBackend, trees]

end Json

/-! ## Flattening -/

namespace Catalog

open Json

/-- A tree without entries is an entry itself when it is a translation, and is left out
when it is none. -/
theorem flatten_of_no_entries {tree : Tree Phrase} (htree : tree.entries? = none)
    (path : String) :
    flatten path tree = (tree.cases?.map fun translation => (path, translation)).toList := by
  cases tree with
  | cases translation => rfl
  | map entries => simp [Tree.entries?] at htree
  | list items => rfl
  | data value => rfl

/-- A leaf is an entry at its path when it is a message. -/
theorem flatten_emitValue_of_leaf {value : Json} (hleaf : value.kind ≠ .object)
    (path : String) :
    flatten path (treeBackend.emitValue value).result =
      [([], value)].filterMap (messageBelow [path]) := by
  have hentry : messageBelow [path] ([], value) =
      value.translation?.map fun translation => (path, translation) := by
    simp [messageBelow]
  rw [flatten_of_no_entries (entries?_emitValue hleaf), cases?_emitValue,
    List.filterMap_cons, hentry]
  cases value.translation? <;> rfl

/-- A name below a path is joined to it with a point. -/
theorem messageBelow_joinKey (path : Option String) (name : String)
    (leaf : List String × Json) :
    messageBelow [joinKey path name] leaf =
      messageBelow path.toList (name :: leaf.1, leaf.2) := by
  obtain ⟨names, value⟩ := leaf
  have hjoined : ".".intercalate (joinKey path name :: names) =
      ".".intercalate (path.toList ++ name :: names) := by
    cases path with
    | none => rfl
    | some path =>
      cases names with
      | nil => simp [joinKey, String.intercalate_cons_cons, String.append_assoc]
      | cons next names => simp [joinKey, String.intercalate_cons_cons, String.append_assoc]
  simp only [messageBelow, List.singleton_append, hjoined]

mutual

/-- Flattening what a document is made into gives the messages among its leaves. -/
theorem flatten_emitValue : ∀ value : Json, value.HasUniqueNames → ∀ path : String,
    flatten path (treeBackend.emitValue value).result =
      value.leaves.filterMap (messageBelow [path])
  | .scalar _, _, path => flatten_emitValue_of_leaf (by simp [kind_eq_object_iff]) path
  | .string _, _, path => flatten_emitValue_of_leaf (by simp [kind_eq_object_iff]) path
  | .array _, _, path => flatten_emitValue_of_leaf (by simp [kind_eq_object_iff]) path
  | .object entries, hunique, path => by
      rw [result_emitValue_object hunique.1]
      exact flattenEntries_trees entries hunique.2 (some path)

/-- The same for the entries of an object. -/
theorem flattenEntries_trees : ∀ entries : List (String × Json),
    EntriesHaveUniqueNames entries → ∀ path : Option String,
    flattenEntries path (trees entries) =
      (entriesLeaves entries).filterMap (messageBelow path.toList)
  | [], _, _ => rfl
  | (name, value) :: entries, hunique, path => by
      have hleaves : ((leaves value).map fun leaf => (name :: leaf.1, leaf.2)).filterMap
          (messageBelow path.toList) =
          (leaves value).filterMap (messageBelow [joinKey path name]) := by
        rw [List.filterMap_map]
        exact congrArg (value.leaves.filterMap ·)
          (funext fun leaf => (messageBelow_joinKey path name leaf).symm)
      rw [trees_cons, flattenEntries, flatten_emitValue value hunique.1,
        flattenEntries_trees entries hunique.2, entriesLeaves, List.filterMap_append, hleaves]

end

/-! ## Filling catalogs -/

/-- Writing to a locale that is not there yet adds it at the end. -/
theorem putAll_of_not_mem {catalog : Catalog} {locale : String}
    (hnew : locale ∉ catalog.localeNames) (added : LocaleEntries) :
    catalog.putAll locale added =
      ⟨catalog.locales ++ [(locale, Entries.ofList added)]⟩ := by
  have hnone : catalog.locales.get? locale = none := Entries.get?_eq_none_iff.mpr hnew
  rw [putAll, entriesOf, hnone, Entries.put_of_not_mem hnew]
  rfl

/-- The messages of a locale, as they are kept in a catalog. -/
def localeMessages (entry : String × Json) : String × LocaleEntries :=
  (entry.1, Entries.ofList entry.2.messages)

/-- A locale that is no object is refused. -/
theorem fill_cons_of_unfit (catalog : Catalog) (locale : String) {tree : Tree Phrase}
    (htree : tree.entries? = none) (locales : List (String × Tree Phrase)) :
    fill catalog ((locale, tree) :: locales) = .error (.notMapping locale) := by
  cases tree with
  | map entries => simp [Tree.entries?] at htree
  | cases translation => rfl
  | list items => rfl
  | data value => rfl

/-- A catalog is filled with the messages of every locale, up to the first locale that
is no object. -/
theorem fill_trees {catalog : Catalog} {locales : List (String × Json)}
    (hnames : (catalog.localeNames ++ Entries.keys locales).Nodup)
    (hunique : EntriesHaveUniqueNames locales) :
    fill catalog (trees locales) =
      match locales.find? fun entry => entry.2.kind ≠ .object with
      | some unfit => .error (.notMapping unfit.1)
      | none => .ok ⟨catalog.locales ++ locales.map localeMessages⟩ := by
  induction locales generalizing catalog with
  | nil => simp [trees, fill]
  | cons entry locales ih =>
    obtain ⟨locale, value⟩ := entry
    rw [trees_cons]
    by_cases hkind : value.kind = .object
    · obtain ⟨entries, rfl⟩ := kind_eq_object_iff.mp hkind
      -- The locale is new, so its messages become the last entry of the catalog.
      have hnew : locale ∉ catalog.localeNames := by
        intro hold
        rw [List.nodup_append] at hnames
        exact hnames.2.2 locale hold locale (List.mem_cons_self ..) rfl
      have hadded : catalog.putAll locale (messages (.object entries)) =
          ⟨catalog.locales ++ [localeMessages (locale, .object entries)]⟩ :=
        putAll_of_not_mem hnew _
      have hrest : (localeNames
          ⟨catalog.locales ++ [localeMessages (locale, .object entries)]⟩ ++
          Entries.keys locales).Nodup := by
        simpa [localeNames, Entries.keys, localeMessages] using hnames
      have hflat : flattenEntries none (trees entries) = messages (.object entries) :=
        flattenEntries_trees entries hunique.1.2 none
      rw [result_emitValue_object hunique.1.1, fill, hflat, hadded, ih hrest hunique.2,
        List.find?_cons_of_neg (by simpa using hkind), List.map_cons, List.append_assoc]
      rfl
    · rw [fill_cons_of_unfit _ _ (entries?_emitValue hkind),
        List.find?_cons_of_pos (by simpa using hkind)]

/-- A document is refused for the first locale that is no object, and otherwise made
into a catalog of the messages of every locale. -/
theorem result_ofJson {locales : List (String × Json)}
    (hunique : (Json.object locales).HasUniqueNames) :
    (ofJson (.object locales)).map Reported.result =
      match locales.find? fun entry => entry.2.kind ≠ .object with
      | some unfit => .error (.notMapping unfit.1)
      | none => .ok ⟨locales.map localeMessages⟩ := by
  have hnames : (empty.localeNames ++ Entries.keys locales).Nodup := hunique.1
  have hfill := fill_trees hnames hunique.2
  have htree := result_emitValue_object hunique.1
  simp only [ofJson, htree, ofTree, hfill]
  cases locales.find? fun entry => entry.2.kind ≠ .object with
  | some unfit => rfl
  | none => rfl

/-- A document is refused exactly when one of its locales is no object, and the first
such locale is named. -/
theorem ofJson_eq_error_iff {locales : List (String × Json)}
    (hunique : (Json.object locales).HasUniqueNames) (error : CatalogError) :
    ofJson (.object locales) = .error error ↔
      ∃ before name value after, locales = before ++ (name, value) :: after ∧
        value.kind ≠ .object ∧ (∀ earlier ∈ before, earlier.2.kind = .object) ∧
        error = .notMapping name := by
  have hmapped : ofJson (.object locales) = .error error ↔
      (ofJson (.object locales)).map Reported.result = .error error := by
    cases ofJson (.object locales) <;> simp [Except.map]
  have hfirst : ofJson (.object locales) = .error error ↔
      ∃ unfit, locales.find? (fun entry => entry.2.kind ≠ .object) = some unfit ∧
        error = .notMapping unfit.1 := by
    rw [hmapped, result_ofJson hunique]
    cases locales.find? fun entry => entry.2.kind ≠ .object with
    | none => simp
    | some unfit => simp [eq_comm]
  rw [hfirst]
  constructor
  · rintro ⟨⟨name, value⟩, hfind, herror⟩
    obtain ⟨hkind, before, after, hsplit, hbefore⟩ := List.find?_eq_some_iff_append.mp hfind
    exact ⟨before, name, value, after, hsplit, by simpa using hkind,
      fun earlier hearlier => by simpa using hbefore earlier hearlier, herror⟩
  · rintro ⟨before, name, value, after, hsplit, hkind, hbefore, herror⟩
    refine ⟨(name, value), List.find?_eq_some_iff_append.mpr ⟨by simpa using hkind, before,
      after, hsplit, fun earlier hearlier => ?_⟩, herror⟩
    simpa using hbefore earlier hearlier

/-- The messages that a catalog keeps for a locale are those of its document. -/
theorem get?_localeMessages (locales : List (String × Json)) (locale : String) :
    Entries.get? (locales.map localeMessages) locale =
      (Entries.get? locales locale).map fun document => Entries.ofList document.messages :=
  Entries.get?_map (fun document => Entries.ofList document.messages) locales locale

/-- A document is refused exactly when one of its locales is no object, and the first
such locale is named.  Otherwise the keys of a locale are those of the messages below
it, in the order in which they first appear, and under a key stands the last message
with that key. -/
theorem ofJson_flattens (locales : List (String × Json))
    (hunique : (Json.object locales).HasUniqueNames) :
    (∀ error, ofJson (.object locales) = .error error ↔
      ∃ before name value after, locales = before ++ (name, value) :: after ∧
        value.kind ≠ .object ∧ (∀ earlier ∈ before, earlier.2.kind = .object) ∧
        error = .notMapping name) ∧
    ((∀ entry ∈ locales, entry.2.kind = .object) →
      ∃ made, ofJson (.object locales) = .ok made ∧ ∀ locale : String,
        (made.result.locales.get? locale).map Entries.keys =
          (Entries.get? locales locale).map
            (fun document => (document.messages.map Prod.fst).eraseDups) ∧
        ∀ key : String, made.result.get? locale key =
          (Entries.get? locales locale).bind fun document =>
            ((document.messages.filter fun message => message.1 = key).getLast?).map
              Prod.snd) := by
  refine ⟨ofJson_eq_error_iff hunique, ?_⟩
  intro hfit
  have hresult := result_ofJson hunique
  have hnone : locales.find? (fun entry => entry.2.kind ≠ .object) = none := by
    rw [List.find?_eq_none]
    intro entry hentry
    simpa using hfit entry hentry
  rw [hnone] at hresult
  cases hmade : ofJson (.object locales) with
  | error error => simp [hmade, Except.map] at hresult
  | ok made =>
    rw [hmade, Except.map, Except.ok.injEq] at hresult
    refine ⟨made, rfl, fun locale => ⟨?_, fun key => ?_⟩⟩
    · rw [hresult, get?_localeMessages, Option.map_map]
      exact congrArg (Option.map · _) (funext fun document => Entries.keys_ofList _)
    · rw [Catalog.get?, hresult, get?_localeMessages, Option.bind_map]
      exact congrArg (Option.bind _ ·) (funext fun document => Entries.get?_ofList _ key)

/-- A document in which two nestings lead to one key, one key is empty, and some leaves
are no messages. -/
def collidingLocales : List (String × Json) :=
  [("en", .object
    [("nav", .object
      [("home", .string "Home"), ("count", .number (.integer ⟨3, by decide⟩))]),
     ("", .array [.string "one", .string "{n}"]),
     ("nav.home", .string "Start | Starts"),
     ("list", .array [.string "one", .null])]),
   ("de", .object [])]

theorem ofJson_flattens_collidingLocales :
    (Json.object collidingLocales).HasUniqueNames ∧
      (∀ entry ∈ collidingLocales, entry.2.kind = .object) ∧
      ∃ made, ofJson (.object collidingLocales) = .ok made ∧
        (made.result.locales.get? "en").map Entries.keys = some ["nav.home", ""] ∧
        made.result.get? "en" "nav.home" = some (Template.plan "Start | Starts").result ∧
        made.result.get? "en" "nav.count" = none := by
  have hunique : (Json.object collidingLocales).HasUniqueNames := by
    simp [collidingLocales, HasUniqueNames, EntriesHaveUniqueNames, ItemsHaveUniqueNames,
      Entries.keys, Json.null]
  have hfit : ∀ entry ∈ collidingLocales, entry.2.kind = .object := by
    simp [collidingLocales, kind]
  obtain ⟨made, hmade, hlocale⟩ := (ofJson_flattens collidingLocales hunique).2 hfit
  refine ⟨hunique, hfit, made, hmade, ?_, ?_, ?_⟩
  · rw [(hlocale "en").1]
    decide +kernel
  · rw [(hlocale "en").2]
    decide +kernel
  · rw [(hlocale "en").2]
    decide +kernel

end Catalog

end Phrasebook

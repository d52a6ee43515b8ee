import Phrasebook.Proofs.Catalog.Merging

/-!
# Histories of catalogs

A catalog that starts empty is filled by writing single translations and by merging catalogs that
were filled in the same way.  What it holds in the end is told by the list of all writes, those of
the merged catalogs among them, at the place of the merge: the last write counts for a value, and
the first one for a place.

Main results:

- Definition `History.writes`: all writes that lead to a catalog.
- Definition `Records`: what a catalog holds after some writes.
- Theorem `Records.merge`: a merged catalog holds what the writes of both leave.
- Theorem `history_catalog`: the catalog of every history, and what one more operation does.
-/

namespace Phrasebook

/-- First occurrences are found before or after some elements are left out. -/
theorem eraseDups_filter {α : Type} [BEq α] [LawfulBEq α] (p : α → Bool) (values : List α) :
    (values.filter p).eraseDups = values.eraseDups.filter p := by
  induction hlength : values.length using Nat.strongRecOn generalizing values with
  | ind n ih =>
    cases values with
    | nil => rfl
    | cons first others =>
      have hshorter : (others.filter fun value => !(value == first)).length < n := by
        have hle := List.length_filter_le (fun value => !(value == first)) others
        simp only [List.length_cons] at hlength
        omega
      have hothers := ih _ hshorter (others.filter fun value => !(value == first)) rfl
      rw [List.eraseDups_cons]
      by_cases hfirst : p first = true
      · rw [List.filter_cons_of_pos hfirst, List.filter_cons_of_pos hfirst,
          List.eraseDups_cons, ← hothers, List.filter_filter, List.filter_filter]
        simp only [Bool.and_comm]
      · rw [List.filter_cons_of_neg hfirst, List.filter_cons_of_neg hfirst, ← hothers,
          List.filter_filter]
        refine congrArg List.eraseDups (List.filter_congr fun value _ => ?_)
        by_cases hsame : value = first
        · simp [hsame, hfirst]
        · simp [hsame]

/-- The first occurrences in two lists are those in the first one, and those in the second one
that are not in the first. -/
theorem eraseDups_append_filter {α : Type} [BEq α] [LawfulBEq α] [DecidableEq α]
    (front back : List α) :
    (front ++ back).eraseDups =
      front.eraseDups ++ back.eraseDups.filter fun value => value ∉ front.eraseDups := by
  rw [List.eraseDups_append, List.removeAll, eraseDups_filter]
  refine congrArg (front.eraseDups ++ ·) (List.filter_congr fun value _ => ?_)
  simp [List.mem_eraseDups]

namespace Catalog

/-! ## Writes -/

/-- A translation that is written under a locale and a key. -/
structure Write where
  locale : String
  key : String
  translation : Translation

/-- The translation that was written last under a locale and a key, if there is one. -/
def lastWritten (writes : List Write) (locale key : String) : Option Translation :=
  ((writes.filter fun write => write.locale = locale ∧ write.key = key).getLast?).map
    Write.translation

/-- The locales that are written to, in the order of the first mention. -/
def localesWritten (writes : List Write) : List String :=
  (writes.map Write.locale).eraseDups

/-- The keys that are written for a locale, in the order of the first mention. -/
def keysWritten (writes : List Write) (locale : String) : List String :=
  ((writes.filter fun write => write.locale = locale).map Write.key).eraseDups

/-- A catalog holds what some writes leave: no name twice, under a locale and a key what was
written last, and all names in the order of the first mention. -/
structure Records (catalog : Catalog) (writes : List Write) : Prop where
  unique : catalog.Unique
  values : ∀ locale key, catalog.get? locale key = lastWritten writes locale key
  locales : catalog.localeNames = localesWritten writes
  keys : ∀ locale, Entries.keys (catalog.entriesOf locale) = keysWritten writes locale

theorem lastWritten_append (front back : List Write) (locale key : String) :
    lastWritten (front ++ back) locale key =
      (lastWritten back locale key).or (lastWritten front locale key) := by
  unfold lastWritten
  rw [List.filter_append, List.getLast?_append, Option.map_or]

/-- The empty catalog holds what no writes leave. -/
theorem records_empty : Records empty [] where
  unique := unique_empty
  values _ _ := rfl
  locales := rfl
  keys _ := rfl

/-- A catalog with one translation holds what one write leaves. -/
theorem records_write (locale key : String) (translation : Translation) :
    Records (empty.put locale key translation) [⟨locale, key, translation⟩] where
  unique := unique_empty.putAll locale _
  values other otherKey := by
    have hvalue : (empty.put locale key translation).get? other otherKey =
        if locale = other ∧ key = otherKey then some translation else none := by
      by_cases hlocale : locale = other
      · by_cases hkey : key = otherKey <;>
          simp [get?, put, putAll, empty, entriesOf, Entries.put, Entries.putAll,
            Entries.get?_cons, hlocale, hkey]
      · simp [get?, put, putAll, empty, entriesOf, Entries.put, Entries.get?_cons, hlocale]
    rw [hvalue, lastWritten]
    by_cases hsame : locale = other ∧ key = otherKey <;> simp [hsame]
  locales := by
    simp [localesWritten, localeNames, put, putAll, empty, Entries.put, Entries.keys,
      List.eraseDups_cons]
  keys other := by
    by_cases hlocale : locale = other <;>
      simp [keysWritten, put, putAll, empty, entriesOf, Entries.put, Entries.putAll,
        Entries.get?_cons, Entries.keys, List.eraseDups_cons, hlocale]

/-- A merged catalog holds what the writes of both leave, one after the other. -/
theorem Records.merge {catalog added : Catalog} {writes more : List Write}
    (hcatalog : catalog.Records writes) (hadded : added.Records more) :
    (catalog.merge added).Records (writes ++ more) where
  unique := hcatalog.unique.merge added
  values locale key := by
    rw [get?_merge hadded.unique, hadded.values, hcatalog.values, lastWritten_append]
  locales := by
    rw [localeNames_merge hadded.unique, hadded.locales, hcatalog.locales, localesWritten,
      localesWritten, localesWritten, List.map_append, eraseDups_append_filter]
  keys locale := by
    rw [entriesOf_merge hadded.unique, Entries.keys_putAll (hadded.unique.entriesOf locale),
      hadded.keys, hcatalog.keys, keysWritten, keysWritten, keysWritten, List.filter_append,
      List.map_append, eraseDups_append_filter]

/-! ## Histories -/

/-- A sequence of operations on a catalog that is empty at first. -/
inductive History where
  | start
  /-- A translation is written. -/
  | put (before : History) (locale key : String) (translation : Translation)
  /-- A catalog with a history of its own is merged. -/
  | merge (before added : History)

namespace History

/-- The catalog that the operations lead to. -/
def catalog : History → Catalog
  | .start => .empty
  | .put before locale key translation =>
      (before.catalog.getThenPut? locale key translation).2
  | .merge before added => before.catalog.merge added.catalog

/-- All writes, in order; a merge brings those of the merged catalog. -/
def writes : History → List Write
  | .start => []
  | .put before locale key translation => before.writes ++ [⟨locale, key, translation⟩]
  | .merge before added => before.writes ++ added.writes

/-- The catalog of a history holds what its writes leave. -/
theorem records_catalog (history : History) : history.catalog.Records history.writes := by
  induction history with
  | start => exact records_empty
  | put before locale key translation ih =>
    rw [catalog, getThenPut?_eq]
    exact ih.merge (records_write locale key translation)
  | merge before added ihbefore ihadded => exact ihbefore.merge ihadded

end History

/-- What one more operation on a catalog does: a write gives back what was found before it and
changes this one answer, and a merge changes the answers that the added catalog has. -/
structure Continues (catalog : Catalog) : Prop where
  replaced : ∀ locale key translation,
    (catalog.getThenPut? locale key translation).1 = catalog.get? locale key
  written : ∀ locale key translation other otherKey,
    (catalog.getThenPut? locale key translation).2.get? other otherKey =
      if locale = other ∧ key = otherKey then some translation else catalog.get? other otherKey
  merged : ∀ (added : History) locale key,
    (catalog.merge added.catalog).get? locale key =
      (added.catalog.get? locale key).or (catalog.get? locale key)

/-- Operations on a catalog change only the answers that they are about. -/
theorem continues (catalog : Catalog) : catalog.Continues where
  replaced locale key translation := by rw [getThenPut?_eq]
  written locale key translation other otherKey := by
    have hwrite := records_write locale key translation
    rw [getThenPut?_eq, put_eq_merge, get?_merge hwrite.unique, hwrite.values, lastWritten]
    by_cases hsame : locale = other ∧ key = otherKey <;> simp [hsame]
  merged added locale key := get?_merge added.records_catalog.unique locale key

/-- The catalog of every history holds what its writes leave, the last value under a locale and
a key and all names in the order of the first mention.  One more operation changes only the
answers that it is about.  Merging is associative, the empty catalog is neutral on both sides,
and merging a catalog with itself changes nothing, not even the order. -/
theorem history_catalog (history : History) :
    history.catalog.Records history.writes ∧ history.catalog.Continues ∧
      (∀ added more : History,
        (history.catalog.merge added.catalog).merge more.catalog =
          history.catalog.merge (added.catalog.merge more.catalog)) ∧
      empty.merge history.catalog = history.catalog ∧
      history.catalog.merge empty = history.catalog ∧
      history.catalog.merge history.catalog = history.catalog := by
  have hrecords := history.records_catalog
  refine ⟨hrecords, continues _, fun added more => ?_,
    empty_merge hrecords.unique, merge_empty _, merge_self hrecords.unique⟩
  exact merge_assoc hrecords.unique added.records_catalog.unique more.records_catalog.unique

end Catalog

end Phrasebook

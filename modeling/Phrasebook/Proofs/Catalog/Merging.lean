import Phrasebook.Catalog
import Phrasebook.Proofs.Entries

/-!
# Merging catalogs

Both levels of a catalog are merged in one way: a name that is there keeps its place, and a new
one comes last.  The levels differ in what becomes of a value whose name is there.  The entries of
a locale join those that it has, and a translation replaces the one before it.  The laws of merging
are shown for any way to join an old value and a new one.

The laws need unique names, because of a name that is repeated only the first entry is found.

Main results:

- Theorem `Entries.ext_get?`: entries with unique names are told by their names and values.
- Theorems `Entries.keys_joinAll` and `Entries.get?_joinAll`: the names and values of joined
  entries.
- Theorem `Entries.joinAll_assoc`: joining is associative if it is for single values.
- Theorem `Catalog.get?_merge`: a merged catalog answers as the added one, and otherwise as
  before.
- Theorems `Catalog.merge_assoc`, `Catalog.empty_merge` and `Catalog.merge_self`: catalogs are a
  monoid under merging, and merging a catalog with itself changes nothing.
-/

namespace Phrasebook

namespace Entries

variable {α : Type}

/-! ## Joining entries -/

/-- Entries with unique names are told by their names, in order, and the values under these. -/
theorem ext_get? {a b : Entries α} (hnames : (keys a).Nodup) (hkeys : keys a = keys b)
    (hvalues : ∀ name, get? a name = get? b name) : a = b := by
  induction a generalizing b with
  | nil => exact (List.map_eq_nil_iff.mp hkeys.symm).symm
  | cons entry rest ih =>
    cases b with
    | nil => cases hkeys
    | cons other others =>
      obtain ⟨hname, hrest⟩ := List.cons.inj hkeys
      replace hrest : keys rest = keys others := hrest
      obtain ⟨hnew, hunique⟩ := List.nodup_cons.mp hnames
      have hvalue : some entry.2 = some other.2 := by
        simpa [get?_cons, ← hname] using hvalues entry.1
      have htail : ∀ name, get? rest name = get? others name := by
        intro name
        by_cases hsame : entry.1 = name
        · rw [← hsame, get?_eq_none_iff.mpr hnew, get?_eq_none_iff.mpr (hrest ▸ hnew)]
        · simpa [get?_cons, ← hname, hsame] using hvalues name
      rw [ih hunique hrest htail, Prod.ext hname (Option.some.inj hvalue)]

/-- Write all values of `added`, in order, each joined to the value that is there. -/
def joinAll (join : Option α → α → α) (entries added : Entries α) : Entries α :=
  added.foldl
    (fun written entry => put written entry.1 (join (get? written entry.1) entry.2)) entries

section

variable {join : Option α → α → α} {entries added more : Entries α}

/-- Joined values keep names unique. -/
theorem nodup_keys_joinAll (hentries : (keys entries).Nodup) (added : Entries α) :
    (keys (joinAll join entries added)).Nodup := by
  induction added generalizing entries with
  | nil => exact hentries
  | cons entry added ih => exact ih (nodup_keys_put hentries entry.1 _)

/-- New names come last, in their order. -/
theorem keys_joinAll (hadded : (keys added).Nodup) :
    keys (joinAll join entries added) =
      keys entries ++ (keys added).filter fun name => name ∉ keys entries := by
  induction added generalizing entries with
  | nil => simp [joinAll, keys]
  | cons entry added ih =>
    obtain ⟨hnew, hunique⟩ := List.nodup_cons.mp hadded
    have hstep : joinAll join entries (entry :: added) =
        joinAll join (put entries entry.1 (join (get? entries entry.1) entry.2)) added := rfl
    rw [hstep, ih hunique, keys_put]
    by_cases hold : entry.1 ∈ keys entries
    · have hcons : keys (entry :: added) = entry.1 :: keys added := rfl
      rw [if_pos hold, hcons, List.filter_cons_of_neg (by simpa using hold)]
    · have hcons : keys (entry :: added) = entry.1 :: keys added := rfl
      have hrest : (keys added).filter (fun name => name ∉ keys entries ++ [entry.1]) =
          (keys added).filter fun name => name ∉ keys entries := by
        refine List.filter_congr fun name hname => ?_
        have hother : name ≠ entry.1 := by
          rintro rfl
          exact hnew hname
        simp [hother]
      rw [if_neg hold, hcons, List.filter_cons_of_pos (by simpa using hold), hrest,
        List.append_assoc, List.singleton_append]

/-- A name that is joined has its values joined, and any other name the value it had. -/
theorem get?_joinAll (hadded : (keys added).Nodup) (name : String) :
    get? (joinAll join entries added) name =
      (get? added name).elim (get? entries name) fun new =>
        some (join (get? entries name) new) := by
  induction added generalizing entries with
  | nil => rfl
  | cons entry added ih =>
    obtain ⟨hnew, hunique⟩ := List.nodup_cons.mp hadded
    have hstep : joinAll join entries (entry :: added) =
        joinAll join (put entries entry.1 (join (get? entries entry.1) entry.2)) added := rfl
    rw [hstep, ih hunique, get?_put, get?_cons]
    by_cases hsame : entry.1 = name
    · rw [← hsame, get?_eq_none_iff.mpr hnew]
      simp
    · simp [hsame]

/-- Entries are joined to others one by one or together, if single values are. -/
theorem joinAll_assoc (hentries : (keys entries).Nodup) (hadded : (keys added).Nodup)
    (hmore : (keys more).Nodup)
    (hjoin : ∀ name first second, get? added name = some first → get? more name = some second →
      join (some (join (get? entries name) first)) second =
        join (get? entries name) (join (some first) second))
    (hnone : ∀ name new, get? more name = some new →
      join (get? entries name) (join none new) = join (get? entries name) new) :
    joinAll join (joinAll join entries added) more =
      joinAll join entries (joinAll join added more) := by
  have htogether : (keys (joinAll join added more)).Nodup := nodup_keys_joinAll hadded more
  refine ext_get? (nodup_keys_joinAll (nodup_keys_joinAll hentries added) more) ?_ fun name => ?_
  · rw [keys_joinAll hmore, keys_joinAll hadded, keys_joinAll htogether, keys_joinAll hmore,
      List.filter_append, List.filter_filter, List.append_assoc]
    congr 2
    refine List.filter_congr fun name _ => ?_
    by_cases hold : name ∈ keys entries <;> simp [hold]
  · rw [get?_joinAll hmore, get?_joinAll hadded, get?_joinAll htogether, get?_joinAll hmore]
    cases hsecond : get? more name with
    | none => rfl
    | some second =>
      cases hfirst : get? added name with
      | none => simp [hnone name second hsecond]
      | some first => simp [hjoin name first second hfirst hsecond]

/-- Entries that are joined to nothing are as they were. -/
theorem joinAll_nil_left (hadded : (keys added).Nodup)
    (hjoin : ∀ name new, get? added name = some new → join none new = new) :
    joinAll join [] added = added := by
  have hnil : (keys ([] : Entries α)).Nodup := List.nodup_nil
  refine ext_get? (nodup_keys_joinAll hnil added) ?_ fun name => ?_
  · rw [keys_joinAll hadded]
    simp [keys]
  · rw [get?_joinAll hadded]
    cases hnew : get? added name with
    | none => rfl
    | some new => simp [hjoin name new hnew]

/-- Entries that are joined to themselves are as they were. -/
theorem joinAll_self (hentries : (keys entries).Nodup)
    (hjoin : ∀ name value, get? entries name = some value → join (some value) value = value) :
    joinAll join entries entries = entries := by
  refine ext_get? (nodup_keys_joinAll hentries entries) ?_ fun name => ?_
  · rw [keys_joinAll hentries]
    simp
  · rw [get?_joinAll hentries]
    cases hvalue : get? entries name with
    | none => rfl
    | some value => simp [hjoin name value hvalue]

end

/-! ## Replacing values -/

section

variable {entries added more : Entries α}

/-- Writing is joining where the new value replaces the old one. -/
theorem putAll_eq_joinAll (entries added : Entries α) :
    putAll entries added = joinAll (fun _ new => new) entries added := rfl

/-- New names come last, in their order. -/
theorem keys_putAll (hadded : (keys added).Nodup) :
    keys (putAll entries added) =
      keys entries ++ (keys added).filter fun name => name ∉ keys entries := by
  rw [putAll_eq_joinAll, keys_joinAll hadded]

/-- A name that is written has its new value, and any other name the value it had. -/
theorem get?_putAll (hadded : (keys added).Nodup) (name : String) :
    get? (putAll entries added) name = (get? added name).or (get? entries name) := by
  rw [putAll_eq_joinAll, get?_joinAll hadded]
  cases get? added name <;> rfl

/-- Entries are written one by one or together. -/
theorem putAll_assoc (hentries : (keys entries).Nodup) (hadded : (keys added).Nodup)
    (hmore : (keys more).Nodup) :
    putAll (putAll entries added) more = putAll entries (putAll added more) := by
  simp only [putAll_eq_joinAll]
  exact joinAll_assoc hentries hadded hmore (fun _ _ _ _ _ => rfl) fun _ _ _ => rfl

/-- Writing entries that are there changes nothing. -/
theorem putAll_self (hentries : (keys entries).Nodup) : putAll entries entries = entries := by
  rw [putAll_eq_joinAll]
  exact joinAll_self hentries fun _ _ _ => rfl

end

end Entries

/-! ## Merging catalogs -/

namespace Catalog

/-- No locale is repeated, and no key of a locale. -/
structure Unique (catalog : Catalog) : Prop where
  locales : catalog.localeNames.Nodup
  keys : ∀ locale ∈ catalog.locales, (Entries.keys locale.2).Nodup

/-- The translations of a locale that is written to come behind those that it has. -/
def joinLocale (old : Option LocaleEntries) (new : LocaleEntries) : LocaleEntries :=
  Entries.putAll (old.getD []) new

/-- Merging joins the locales. -/
theorem locales_merge (catalog other : Catalog) :
    (catalog.merge other).locales =
      Entries.joinAll joinLocale catalog.locales other.locales := by
  obtain ⟨locales⟩ := other
  unfold merge
  induction locales generalizing catalog with
  | nil => rfl
  | cons locale locales ih => exact ih (catalog.putAll locale.1 locale.2)

/-- A write is a merge with what is written. -/
theorem put_eq_merge (catalog : Catalog) (locale key : String) (translation : Translation) :
    catalog.put locale key translation = catalog.merge (empty.put locale key translation) := rfl

section

variable {catalog added more : Catalog}

theorem unique_empty : empty.Unique where
  locales := List.nodup_nil
  keys := by simp [empty]

/-- The keys of a locale are not repeated. -/
theorem Unique.of_get? (hcatalog : catalog.Unique) {locale : String} {entries : LocaleEntries}
    (hentries : catalog.locales.get? locale = some entries) : (Entries.keys entries).Nodup :=
  hcatalog.keys _ (Entries.mem_of_get? hentries)

/-- The keys of a locale are not repeated, whether or not it is there. -/
theorem Unique.entriesOf (hcatalog : catalog.Unique) (locale : String) :
    (Entries.keys (catalog.entriesOf locale)).Nodup := by
  unfold Catalog.entriesOf
  cases hentries : catalog.locales.get? locale with
  | none => exact List.nodup_nil
  | some entries => exact hcatalog.of_get? hentries

/-- Writing to a locale repeats no names. -/
theorem Unique.putAll (hcatalog : catalog.Unique) (locale : String) (added : LocaleEntries) :
    (catalog.putAll locale added).Unique where
  locales := Entries.nodup_keys_put hcatalog.locales locale _
  keys := by
    intro changed hchanged
    rcases Entries.mem_of_mem_put hchanged with hold | rfl
    · exact hcatalog.keys changed hold
    · exact Entries.nodup_keys_putAll (hcatalog.entriesOf locale) added

/-- Merging repeats no names. -/
theorem Unique.merge (hcatalog : catalog.Unique) (added : Catalog) :
    (catalog.merge added).Unique := by
  obtain ⟨locales⟩ := added
  unfold Catalog.merge
  induction locales generalizing catalog with
  | nil => exact hcatalog
  | cons locale locales ih => exact ih (hcatalog.putAll locale.1 locale.2)

/-- New locales come last, in their order. -/
theorem localeNames_merge (hadded : added.Unique) :
    (catalog.merge added).localeNames = catalog.localeNames ++
      added.localeNames.filter fun locale => locale ∉ catalog.localeNames := by
  rw [localeNames, locales_merge]
  exact Entries.keys_joinAll hadded.locales

/-- The translations of a locale are those that it has, and then those that are added. -/
theorem entriesOf_merge (hadded : added.Unique) (locale : String) :
    (catalog.merge added).entriesOf locale =
      Entries.putAll (catalog.entriesOf locale) (added.entriesOf locale) := by
  unfold entriesOf
  rw [locales_merge, Entries.get?_joinAll hadded.locales]
  cases added.locales.get? locale <;> rfl

/-- What is found under a locale and a key is found among the translations of the locale. -/
theorem get?_eq_entriesOf (catalog : Catalog) (locale key : String) :
    catalog.get? locale key = (catalog.entriesOf locale).get? key := by
  unfold get? entriesOf
  cases catalog.locales.get? locale <;> rfl

/-- A merged catalog answers as the added one does, and as before where that has no answer. -/
theorem get?_merge (hadded : added.Unique) (locale key : String) :
    (catalog.merge added).get? locale key =
      (added.get? locale key).or (catalog.get? locale key) := by
  simp only [get?_eq_entriesOf, entriesOf_merge hadded,
    Entries.get?_putAll (hadded.entriesOf locale)]

theorem merge_empty (catalog : Catalog) : catalog.merge empty = catalog := rfl

/-- Merging with the empty catalog in front changes nothing. -/
theorem empty_merge (hcatalog : catalog.Unique) : empty.merge catalog = catalog := by
  obtain ⟨locales⟩ := catalog
  refine congrArg Catalog.mk ((locales_merge _ _).trans ?_)
  exact Entries.joinAll_nil_left hcatalog.locales fun _ _ hentries =>
    Entries.ofList_eq_self (hcatalog.of_get? hentries)

/-- Merging is associative. -/
theorem merge_assoc (hcatalog : catalog.Unique) (hadded : added.Unique) (hmore : more.Unique) :
    (catalog.merge added).merge more = catalog.merge (added.merge more) := by
  suffices hlocales : ((catalog.merge added).merge more).locales =
      (catalog.merge (added.merge more)).locales from congrArg Catalog.mk hlocales
  simp only [locales_merge]
  refine Entries.joinAll_assoc hcatalog.locales hadded.locales hmore.locales
    (fun locale first second hfirst hsecond => ?_) fun locale new hnew => ?_
  · exact Entries.putAll_assoc (hcatalog.entriesOf locale) (hadded.of_get? hfirst)
      (hmore.of_get? hsecond)
  · have hempty : joinLocale none new = new := Entries.ofList_eq_self (hmore.of_get? hnew)
    rw [hempty]

/-- Merging a catalog with itself changes nothing. -/
theorem merge_self (hcatalog : catalog.Unique) : catalog.merge catalog = catalog := by
  obtain ⟨locales⟩ := catalog
  refine congrArg Catalog.mk ((locales_merge _ _).trans ?_)
  exact Entries.joinAll_self hcatalog.locales fun _ _ hentries =>
    Entries.putAll_self (hcatalog.of_get? hentries)

end

end Catalog

end Phrasebook

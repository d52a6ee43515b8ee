import Phrasebook.Json.Reader
import Phrasebook.Proofs.Entries

/-!
# Unique names in JSON values

An object names each of its values once.  The type of values does not ask for that,
because a value is read with all entries of its objects first.  Whatever a whole text
stands for has unique names at every depth.

Main results:

- Definition `HasUniqueNames`: no object in a value repeats a name.
- Theorem `hasUniqueNames_unique`: making names unique makes them unique everywhere.
- Theorem `hasUniqueNames_of_ofText`: values that were read have unique names.
-/

namespace Phrasebook.Json

mutual

/-- No object in a value, at any depth, repeats a name. -/
def HasUniqueNames : Json → Prop
  | .scalar _ => True
  | .string _ => True
  | .array items => ItemsHaveUniqueNames items
  | .object entries => (Entries.keys entries).Nodup ∧ EntriesHaveUniqueNames entries

/-- No object in the items of an array repeats a name. -/
def ItemsHaveUniqueNames : List Json → Prop
  | [] => True
  | item :: items => HasUniqueNames item ∧ ItemsHaveUniqueNames items

/-- No object in the values of entries repeats a name. -/
def EntriesHaveUniqueNames : List (String × Json) → Prop
  | [] => True
  | (_, value) :: entries => HasUniqueNames value ∧ EntriesHaveUniqueNames entries

end

theorem entriesHaveUniqueNames_iff {entries : List (String × Json)} :
    EntriesHaveUniqueNames entries ↔ ∀ entry ∈ entries, entry.2.HasUniqueNames := by
  induction entries with
  | nil => simp [EntriesHaveUniqueNames]
  | cons entry entries ih => simp [EntriesHaveUniqueNames, ih]

/-- The writes that make up an object decide whether names repeat inside its values. -/
theorem hasUniqueNames_object_ofList {entries : List (String × Json)}
    (hentries : EntriesHaveUniqueNames entries) :
    (Json.object (Entries.ofList entries)).HasUniqueNames := by
  rw [entriesHaveUniqueNames_iff] at hentries
  refine ⟨Entries.nodup_keys_ofList entries, entriesHaveUniqueNames_iff.mpr ?_⟩
  intro entry hentry
  exact hentries entry (Entries.mem_of_mem_ofList hentry)

mutual

/-- Making names unique makes them unique at every depth. -/
theorem hasUniqueNames_unique : ∀ value : Json, (unique value).HasUniqueNames
  | .scalar _ => trivial
  | .string _ => trivial
  | .array items => itemsHaveUniqueNames_uniqueItems items
  | .object entries => hasUniqueNames_object_ofList (entriesHaveUniqueNames_uniqueEntries entries)

/-- The same for the items of an array. -/
theorem itemsHaveUniqueNames_uniqueItems :
    ∀ items : List Json, ItemsHaveUniqueNames (uniqueItems items)
  | [] => trivial
  | item :: items => ⟨hasUniqueNames_unique item, itemsHaveUniqueNames_uniqueItems items⟩

/-- The same for the entries of an object. -/
theorem entriesHaveUniqueNames_uniqueEntries :
    ∀ entries : List (String × Json), EntriesHaveUniqueNames (uniqueEntries entries)
  | [] => trivial
  | (_, value) :: entries =>
      ⟨hasUniqueNames_unique value, entriesHaveUniqueNames_uniqueEntries entries⟩

end

/-- Every value that a text stands for has unique names. -/
theorem hasUniqueNames_of_ofText {text : List Char} {value : Json}
    (htext : ofText text = .ok value) : value.HasUniqueNames := by
  unfold ofText at htext
  cases hread : readWhole (readValue depthLimit) text with
  | error stop => simp [hread, Except.map] at htext
  | ok read =>
    rw [hread, Except.map, Except.ok.injEq] at htext
    exact htext ▸ hasUniqueNames_unique read

end Phrasebook.Json

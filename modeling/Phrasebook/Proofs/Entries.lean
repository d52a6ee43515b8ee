import Mathlib.Data.List.Induction
import Phrasebook.Entries

/-!
# Lists of writes

Writing a list of named values makes entries with unique names, and entries whose
names are already unique are written as they stand.  The last write under a name
decides its value, and the first one its place.

Main results:

- Theorem `nodup_keys_ofList`: written entries have unique names.
- Theorem `ofList_eq_self`: entries with unique names are what writing them gives.
- Theorem `mem_of_mem_ofList`: nothing is among the written entries that was not
  written.
- Theorem `get?_ofList`: a name has the value that was written last under it.
- Theorem `keys_ofList`: names come in the order in which they were first written.
-/

namespace Phrasebook.Entries

variable {α β : Type}

/-- A write keeps names unique. -/
theorem nodup_keys_put {entries : Entries α} (hnames : (keys entries).Nodup)
    (name : String) (value : α) : (keys (put entries name value)).Nodup := by
  rw [keys_put]
  split
  · exact hnames
  · rename_i hnew
    rw [List.nodup_append]
    refine ⟨hnames, by simp, ?_⟩
    intro old hold other hother
    rw [List.mem_singleton.mp hother]
    exact fun hsame => hnew (hsame ▸ hold)

/-- Any number of writes keep names unique. -/
theorem nodup_keys_putAll {entries : Entries α} (hnames : (keys entries).Nodup)
    (added : Entries α) : (keys (putAll entries added)).Nodup := by
  induction added generalizing entries with
  | nil => exact hnames
  | cons entry added ih => exact ih (nodup_keys_put hnames entry.1 entry.2)

/-- Written entries have unique names. -/
theorem nodup_keys_ofList (writes : List (String × α)) : (keys (ofList writes)).Nodup :=
  nodup_keys_putAll (by simp [keys]) writes

/-- A write under a new name adds an entry at the end. -/
theorem put_of_not_mem {entries : Entries α} {name : String}
    (hnew : name ∉ keys entries) (value : α) :
    put entries name value = entries ++ [(name, value)] := by
  induction entries with
  | nil => rfl
  | cons entry rest ih =>
    simp only [keys, List.map_cons, List.mem_cons, not_or] at hnew
    have hrest : name ∉ keys rest := hnew.2
    simp [put, Ne.symm hnew.1, ih hrest]

/-- Writes under new names are added in order. -/
theorem putAll_of_nodup {entries added : Entries α}
    (hnames : (keys (entries ++ added)).Nodup) :
    putAll entries added = entries ++ added := by
  induction added generalizing entries with
  | nil => simp [putAll]
  | cons entry added ih =>
    have hnew : entry.1 ∉ keys entries := by
      intro hold
      simp only [keys, List.map_append, List.map_cons, List.nodup_append] at hnames
      exact hnames.2.2 entry.1 hold entry.1 (List.mem_cons_self ..) rfl
    have hsplit : entries ++ entry :: added = (entries ++ [entry]) ++ added := by simp
    calc putAll entries (entry :: added)
        = putAll (put entries entry.1 entry.2) added := rfl
      _ = putAll (entries ++ [entry]) added := by rw [put_of_not_mem hnew]
      _ = entries ++ entry :: added := by
          rw [hsplit] at hnames ⊢
          exact ih hnames

/-- Entries with unique names are what writing them gives. -/
theorem ofList_eq_self {entries : Entries α} (hnames : (keys entries).Nodup) :
    ofList entries = entries := by
  have hwrites := @putAll_of_nodup α [] entries hnames
  simpa [ofList] using hwrites

theorem mem_of_mem_put {entries : Entries α} {name : String} {value : α}
    {entry : String × α} (hentry : entry ∈ put entries name value) :
    entry ∈ entries ∨ entry = (name, value) := by
  induction entries with
  | nil => exact Or.inr (List.mem_singleton.mp hentry)
  | cons first rest ih =>
    simp only [put] at hentry
    split at hentry
    · rcases List.mem_cons.mp hentry with hentry | hentry
      · exact Or.inr hentry
      · exact Or.inl (List.mem_cons_of_mem _ hentry)
    · rcases List.mem_cons.mp hentry with hentry | hentry
      · exact Or.inl (hentry ▸ List.mem_cons_self ..)
      · rcases ih hentry with hold | hnew
        · exact Or.inl (List.mem_cons_of_mem _ hold)
        · exact Or.inr hnew

theorem mem_of_mem_putAll {entries added : Entries α} {entry : String × α}
    (hentry : entry ∈ putAll entries added) : entry ∈ entries ∨ entry ∈ added := by
  induction added generalizing entries with
  | nil => exact Or.inl hentry
  | cons first added ih =>
    rcases ih hentry with hold | hadded
    · rcases mem_of_mem_put hold with hold | hnew
      · exact Or.inl hold
      · exact Or.inr (hnew ▸ List.mem_cons_self ..)
    · exact Or.inr (List.mem_cons_of_mem _ hadded)

/-- Every written entry is one of the writes. -/
theorem mem_of_mem_ofList {writes : List (String × α)} {entry : String × α}
    (hentry : entry ∈ ofList writes) : entry ∈ writes := by
  rcases mem_of_mem_putAll hentry with hnone | hwrite
  · simp at hnone
  · exact hwrite

/-! ## Values and places -/

/-- A name has no value exactly when it is not there. -/
theorem get?_eq_none_iff {entries : Entries α} {name : String} :
    get? entries name = none ↔ name ∉ keys entries := by
  induction entries with
  | nil => simp [keys]
  | cons entry rest ih =>
    rw [get?_cons, keys, List.map_cons, List.mem_cons, not_or]
    by_cases hname : entry.1 = name
    · simp [hname]
    · rw [if_neg hname, ih]
      exact ⟨fun hrest => ⟨Ne.symm hname, hrest⟩, And.right⟩

/-- What is found under a name is the value of one of the entries. -/
theorem mem_of_get? {entries : Entries α} {name : String} {value : α}
    (hvalue : get? entries name = some value) : (name, value) ∈ entries := by
  induction entries with
  | nil => cases hvalue
  | cons entry rest ih =>
    rw [get?_cons] at hvalue
    split at hvalue
    · rename_i hname
      cases hvalue
      exact hname ▸ List.mem_cons_self
    · exact List.mem_cons_of_mem _ (ih hvalue)

/-- Where names are unique, every entry is found under its name. -/
theorem get?_eq_some_iff {entries : Entries α} (hnames : (keys entries).Nodup)
    {name : String} {value : α} :
    get? entries name = some value ↔ (name, value) ∈ entries := by
  refine ⟨mem_of_get?, fun hentry => ?_⟩
  induction entries with
  | nil => cases hentry
  | cons entry rest ih =>
    rw [keys, List.map_cons, List.nodup_cons] at hnames
    rw [get?_cons]
    rcases List.mem_cons.mp hentry with rfl | hrest
    · rw [if_pos rfl]
    · have hother : entry.1 ≠ name := by
        rintro rfl
        exact hnames.1 (List.mem_map.mpr ⟨_, hrest, rfl⟩)
      rw [if_neg hother, ih hnames.2 hrest]

/-- Looking a name up commutes with changing all values. -/
theorem get?_map (f : α → β) (entries : Entries α) (name : String) :
    get? (entries.map fun entry => (entry.1, f entry.2)) name = (get? entries name).map f := by
  induction entries with
  | nil => rfl
  | cons entry rest ih =>
    rw [List.map_cons, get?_cons, get?_cons, ih]
    split <;> rfl

/-- One more write comes after all others. -/
theorem ofList_concat (writes : List (String × α)) (write : String × α) :
    ofList (writes ++ [write]) = put (ofList writes) write.1 write.2 := by
  simp [ofList, putAll]

/-- A name has the value that was written last under it. -/
theorem get?_ofList (writes : List (String × α)) (name : String) :
    get? (ofList writes) name =
      ((writes.filter fun write => write.1 = name).getLast?).map Prod.snd := by
  induction writes using List.reverseRecOn with
  | nil => rfl
  | append_singleton writes write ih =>
    rw [ofList_concat, get?_put, ih, List.filter_append, List.getLast?_append]
    by_cases hname : write.1 = name
    · simp [hname]
    · simp [hname]

/-- Names come in the order in which they were first written. -/
theorem keys_ofList (writes : List (String × α)) :
    keys (ofList writes) = (writes.map Prod.fst).eraseDups := by
  induction writes using List.reverseRecOn with
  | nil => rfl
  | append_singleton writes write ih =>
    rw [ofList_concat, keys_put, ih, List.map_append, List.eraseDups_append]
    by_cases hname : write.1 ∈ writes.map Prod.fst
    · simp [hname, List.removeAll, List.mem_eraseDups]
    · simp [hname, List.removeAll, List.mem_eraseDups, List.eraseDups_cons]

end Phrasebook.Entries

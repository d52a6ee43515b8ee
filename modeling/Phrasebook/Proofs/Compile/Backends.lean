import Phrasebook.Compile
import Phrasebook.Proofs.Outline
import Phrasebook.Proofs.Script.Trees

/-!
# Both backends agree

Going through a value makes an expression with one backend and a tree with the
other.  The expression stands for the tree: both backends get the same outlines, and
a plural group is told from a list in the same way when it is read as when it was
written.

Main results:

- Theorem `treeOfItems_of_mixed`: an array with something else than phrases in it is
  read as a list.
- Theorem `denotes_emitCases`: what is made of messages for a script stands for what
  is made of them in memory.
- Theorem `denotes_emitValue`: the same for every value whose numbers read back.
- Theorem `warnings_emitCases`: every backend warns about the links of all cases.
-/

namespace Phrasebook

open Script

/-! ## Arrays -/

/-- A list is mapped as a whole unless one of its elements is not mapped. -/
theorem mapM_eq_none_iff {α β : Type} {f : α → Option β} {values : List α} :
    values.mapM f = none ↔ ∃ value ∈ values, f value = none := by
  induction values with
  | nil => simp
  | cons value values ih =>
    rw [List.mapM_cons]
    cases hvalue : f value with
    | none => simp [hvalue]
    | some image =>
      cases hvalues : values.mapM f with
      | none => simpa [hvalue, hvalues] using ih.mp hvalues
      | some images =>
        rw [hvalues] at ih
        simpa [hvalue, hvalues] using ih

/-- When a list is mapped as a whole every image comes from an element. -/
theorem exists_of_mem_mapM {α β : Type} {f : α → Option β} {values : List α} {images : List β}
    (himages : values.mapM f = some images) {image : β} (himage : image ∈ images) :
    ∃ value ∈ values, f value = some image := by
  induction values generalizing images with
  | nil =>
    rw [List.mapM_nil] at himages
    rw [← Option.some.inj himages] at himage
    cases himage
  | cons value values ih =>
    rw [List.mapM_cons] at himages
    obtain ⟨first, hfirst, hrest⟩ := Option.bind_eq_some_iff.mp himages
    obtain ⟨others, hothers, hall⟩ := Option.bind_eq_some_iff.mp hrest
    rw [← Option.some.inj hall] at himage
    rcases List.mem_cons.mp himage with rfl | himage
    · exact ⟨value, List.mem_cons_self .., hfirst⟩
    · obtain ⟨other, hother, hsame⟩ := ih hothers himage
      exact ⟨other, List.mem_cons_of_mem value hother, hsame⟩

/-- A list is mapped as a whole when each of its elements is. -/
theorem mapM_eq_map {α β : Type} {f : α → Option β} {g : α → β} {values : List α}
    (hfg : ∀ value ∈ values, f value = some (g value)) :
    values.mapM f = some (values.map g) := by
  induction values with
  | nil => rfl
  | cons value values ih =>
    rw [List.forall_mem_cons] at hfg
    simp [List.mapM_cons, hfg.1, ih hfg.2]

theorem mapM_map_some {α β : Type} {f : β → Option α} {g : α → β}
    (hfg : ∀ a, f (g a) = some a) (values : List α) :
    (values.map g).mapM f = some values := by
  have hvalues : values.mapM (f ∘ g) = some (values.map id) :=
    mapM_eq_map fun a _ => hfg a
  rw [List.mapM_map, hvalues, List.map_id]

/-- An array with something else than phrases in it, or with nothing, is a list. -/
theorem treeOfItems_of_mixed {items : List (Tree Phrase)}
    (hmixed : items = [] ∨ ∃ item ∈ items, phrase? item = none) :
    treeOfItems items = .list items := by
  unfold treeOfItems
  split
  · rename_i hphrases
    exfalso
    rcases hmixed with hnil | hnone
    · simp at hnil
    · simp [mapM_eq_none_iff.mpr hnone] at hphrases
  · rfl

/-- An array of phrases alone is a plural group. -/
theorem treeOfItems_phrases {phrases : List Phrase} (hsome : phrases ≠ []) :
    treeOfItems (phrases.map fun phrase => .cases (.single phrase)) =
      .cases (.plural phrases) := by
  have hphrases : ((phrases.map fun phrase =>
      (.cases (.single phrase) : Tree Phrase)).mapM phrase?) = some phrases :=
    mapM_map_some (f := phrase?) (fun _ => rfl) phrases
  obtain ⟨first, others, rfl⟩ := List.exists_cons_of_ne_nil hsome
  rw [List.map_cons] at hphrases ⊢
  simp only [treeOfItems, hphrases]

/-! ## Messages -/

/-- What is made of an outline for a script stands for its phrase. -/
theorem denotes_emitOutline {outline : Outline} (houtline : outline.WellFormed) :
    Denotes (scriptBackend.emitOutline outline)
      (.cases (.single (treeBackend.emitOutline outline))) := by
  cases outline with
  | fixed text => exact Denotes.fixed text
  | segmented segments keys =>
    have hdenotes := Denotes.interpolated (.ofSegments segments keys)
    rwa [Interpolation.segments_ofSegments houtline.2, Interpolation.keys_ofSegments]
      at hdenotes

/-- What is made of a message for a script stands for its phrase. -/
theorem denotes_emitMessage (message : Message) :
    Denotes (scriptBackend.emitMessage message).result
      (.cases (.single (treeBackend.emitMessage message).result)) :=
  denotes_emitOutline message.wellFormed_outline

/-- What is made of messages for a script stands for what is made of them in
memory. -/
theorem denotes_emitCases {cases : Cases Message} (hsome : cases ≠ .plural []) :
    Denotes (scriptBackend.emitCases cases).result
      (treeBackend.emitCases cases).result := by
  cases cases with
  | single message => exact denotes_emitMessage message
  | plural messages =>
    let phrase := fun message => (treeBackend.emitMessage message).result
    let part := fun message => ((scriptBackend.emitMessage message).result,
      (.cases (.single (phrase message)) : Tree Phrase))
    have hparts : ∀ p ∈ messages.map part, Denotes p.1 p.2 := by
      intro p hp
      obtain ⟨message, -, rfl⟩ := List.mem_map.mp hp
      exact denotes_emitMessage message
    have hphrases : messages.map phrase ≠ [] := by
      intro hnil
      exact hsome (by rw [List.map_eq_nil_iff.mp hnil])
    have hgroup : treeOfItems ((messages.map part).map Prod.snd) =
        .cases (.plural (messages.map phrase)) := by
      rw [← treeOfItems_phrases hphrases]
      simp [part, Function.comp_def]
    have hdenotes := Denotes.array (messages.map part) hparts
    rw [hgroup] at hdenotes
    simpa [part, phrase, Backend.emitCases, Reported.all, Function.comp_def,
      scriptBackend, treeBackend] using hdenotes

/-- What is made of parsed cases in memory is their translation, with its
warnings. -/
theorem emitCases_treeBackend (cases : Cases Message) :
    treeBackend.emitCases cases = cases.plan.map Tree.cases := by
  cases cases with
  | single message => rfl
  | plural messages => rfl

/-- Every backend warns about the links of all cases, in order. -/
theorem warnings_emitCases {μ τ : Type} (backend : Backend μ τ) (cases : Cases Message) :
    (backend.emitCases cases).warnings =
      cases.toList.flatMap fun message => message.items.filterMap Item.warning? := by
  cases cases with
  | single message =>
    simp [Backend.emitCases, Backend.emitMessage, Message.warnings_outline, Cases.toList]
  | plural messages =>
    simp [Backend.emitCases, Backend.emitMessage, Message.warnings_outline, Cases.toList,
      Reported.all, List.flatMap_map]

/-! ## Values -/

/-- The items of an array that is no plural group are not all single messages. -/
theorem mixed_of_group?_eq_none {items : List Json} (hgroup : Json.group? items = none) :
    items = [] ∨ ∃ item ∈ items, Json.message? item = none := by
  unfold Json.group? at hgroup
  split at hgroup
  · rename_i hempty
    exact Or.inl (by simpa using hempty)
  · exact Or.inr (mapM_eq_none_iff.mp hgroup)

/-- A plural group written out has a message at least. -/
theorem group?_ne_some_nil (items : List Json) : Json.group? items ≠ some [] := by
  unfold Json.group?
  split
  · simp
  · rename_i hempty
    cases items with
    | nil => simp at hempty
    | cons item items =>
      rw [List.mapM_cons]
      cases Json.message? item with
      | none => simp
      | some message => cases items.mapM Json.message? <;> simp

/-- A template is never an empty plural group. -/
theorem parse_ne_plural_nil (template : String) :
    Template.parse template ≠ .plural [] := by
  unfold Template.parse
  have hcases : (Template.split template).map Template.parseCase ≠ [] := by
    simp [Template.split, Template.cut_ne_nil]
  split
  · simp
  · intro hnil
    injection hnil with hnil
    exact hcases hnil

/-- A value that is not one message does not become one phrase. -/
theorem phrase?_emitValue {value : Json} (hmessage : Json.message? value = none) :
    phrase? (treeBackend.emitValue value).result = none := by
  cases value with
  | scalar value => rfl
  | string template =>
    simp only [Json.message?] at hmessage
    cases hparse : Template.parse template with
    | single message => simp [hparse] at hmessage
    | plural messages =>
      rw [Backend.emitValue, hparse]
      rfl
  | array items =>
    rw [Backend.emitValue]
    split <;> rfl
  | object entries => rfl

/-- An array that is no plural group becomes a list. -/
theorem treeOfItems_emitItems {items : List Json} (hgroup : Json.group? items = none) :
    treeOfItems (items.map fun item => (treeBackend.emitValue item).result) =
      .list (items.map fun item => (treeBackend.emitValue item).result) := by
  apply treeOfItems_of_mixed
  rcases mixed_of_group?_eq_none hgroup with rfl | ⟨item, hitem, hmessage⟩
  · exact Or.inl rfl
  · exact Or.inr ⟨_, List.mem_map_of_mem hitem, phrase?_emitValue hmessage⟩

mutual

/-- What is made of a value for a script stands for the tree that is made of it in
memory. -/
theorem denotes_emitValue : ∀ value : Json, (∀ n ∈ value.numbers, n.ReadsBack) →
    Denotes (scriptBackend.emitValue value).result (treeBackend.emitValue value).result
  | .scalar value, hnumbers => by
      refine Denotes.data value ?_
      rintro n rfl
      exact hnumbers n (by simp [Json.numbers])
  | .string template, _ => denotes_emitCases (parse_ne_plural_nil template)
  | .array items, hnumbers => by
      rw [Backend.emitValue, Backend.emitValue]
      cases hgroup : Json.group? items with
      | some messages =>
        apply denotes_emitCases
        intro hnil
        injection hnil with hnil
        exact group?_ne_some_nil items (hnil ▸ hgroup)
      | none =>
        let part := fun item => ((scriptBackend.emitValue item).result,
          (treeBackend.emitValue item).result)
        have hparts : ∀ p ∈ items.map part, Denotes p.1 p.2 := by
          intro p hp
          obtain ⟨item, hitem, rfl⟩ := List.mem_map.mp hp
          exact denotes_emitItems items (by simpa [Json.numbers] using hnumbers) item hitem
        have hdenotes := Denotes.array (items.map part) hparts
        have hlist := treeOfItems_emitItems hgroup
        simp only [List.map_map, Function.comp_def, part, hlist] at hdenotes
        simpa [Reported.all, Backend.emitItems_eq_map, Function.comp_def, scriptBackend,
          treeBackend] using hdenotes
  | .object entries, hnumbers => by
      let part := fun entry : String × Json => (entry.1,
        (scriptBackend.emitValue entry.2).result, (treeBackend.emitValue entry.2).result)
      have hparts : ∀ p ∈ entries.map part, Denotes p.2.1 p.2.2 := by
        intro p hp
        obtain ⟨entry, hentry, rfl⟩ := List.mem_map.mp hp
        exact denotes_emitEntries entries (by simpa [Json.numbers] using hnumbers)
          entry hentry
      have hdenotes := Denotes.object (entries.map part) hparts
      rw [Backend.emitValue, Backend.emitValue]
      simpa [part, Reported.allEntries, Backend.emitEntries_eq_map, Function.comp_def,
        scriptBackend, treeBackend] using hdenotes

/-- The same for the items of an array. -/
theorem denotes_emitItems : ∀ items : List Json,
    (∀ n ∈ Json.itemsNumbers items, n.ReadsBack) → ∀ item ∈ items,
    Denotes (scriptBackend.emitValue item).result (treeBackend.emitValue item).result
  | [], _ => by simp
  | first :: others, hnumbers => by
      have hfirst := denotes_emitValue first fun n hn =>
        hnumbers n (by simp [Json.itemsNumbers, hn])
      have hothers := denotes_emitItems others fun n hn =>
        hnumbers n (by simp [Json.itemsNumbers, hn])
      intro item hitem
      rcases List.mem_cons.mp hitem with rfl | hitem
      · exact hfirst
      · exact hothers item hitem

/-- The same for the entries of an object. -/
theorem denotes_emitEntries : ∀ entries : List (String × Json),
    (∀ n ∈ Json.entriesNumbers entries, n.ReadsBack) → ∀ entry ∈ entries,
    Denotes (scriptBackend.emitValue entry.2).result
      (treeBackend.emitValue entry.2).result
  | [], _ => by simp
  | (name, value) :: others, hnumbers => by
      have hvalue := denotes_emitValue value fun n hn =>
        hnumbers n (by simp [Json.entriesNumbers, hn])
      have hothers := denotes_emitEntries others fun n hn =>
        hnumbers n (by simp [Json.entriesNumbers, hn])
      intro entry hentry
      rcases List.mem_cons.mp hentry with rfl | hentry
      · exact hvalue
      · exact hothers entry hentry

end

end Phrasebook

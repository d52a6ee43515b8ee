import Phrasebook.Outline
import Phrasebook.Phrase.Basic

/-!
# Outlines of messages

The loop over the items of a message keeps a draft.  Its warnings grow by one for
every link and by nothing else, and its segments and keys alternate.

Main results:

- Theorem `warnings_outline`: outlining a message warns about its links, once for
  each and in their order.
- Theorem `wellFormed_outline`: the outline of a message has one segment more than
  it has keys, and a key at least unless it is a fixed text.
- Theorem `exists_outline_fixed_iff`: the messages without placeholders, and no
  others, are outlined as a fixed text.
- Theorems `segments_ofSegments` and `keys_ofSegments`: an interpolation keeps
  segments and keys that alternate.
-/

namespace Phrasebook

/-- The warning that an item raises, if it raises one. -/
def Item.warning? : Item → Option Warning
  | .linked key _ => some (.linkSkipped key)
  | _ => none

/-- The key that an item asks for, if it is a placeholder. -/
def Item.key? : Item → Option Key
  | .placeholder key => some key
  | _ => none

/-- Segments and keys that alternate, with a key at least. -/
def Outline.WellFormed : Outline → Prop
  | .fixed _ => True
  | .segmented segments keys => keys ≠ [] ∧ segments.length = keys.length + 1

/-! ## The loop over the items -/

namespace Draft

/-- What every item adds behind what there was is added in order by all of them. -/
theorem foldl_add_eq {β : Type} {part : Draft → List β} {added? : Item → Option β}
    (hadd : ∀ draft item, part (add draft item) = part draft ++ (added? item).toList)
    (draft : Draft) (items : List Item) :
    part (items.foldl add draft) = part draft ++ items.filterMap added? := by
  induction items generalizing draft with
  | nil => simp
  | cons item items ih =>
    rw [List.foldl_cons, ih, hadd, List.append_assoc, List.filterMap_cons]
    cases added? item <;> rfl

/-- One more item adds its own warning. -/
theorem warnings_add (draft : Draft) (item : Item) :
    (draft.add item).warnings = draft.warnings ++ item.warning?.toList := by
  cases item <;> simp [add, Item.warning?]

/-- The items add their warnings in order. -/
theorem warnings_foldl_add (draft : Draft) (items : List Item) :
    (items.foldl add draft).warnings = draft.warnings ++ items.filterMap Item.warning? :=
  foldl_add_eq warnings_add draft items

/-- One more item adds its own key. -/
theorem keys_add (draft : Draft) (item : Item) :
    (draft.add item).keys = draft.keys ++ item.key?.toList := by
  cases item <;> simp [add, keys, Item.key?]

/-- The items add their keys in order. -/
theorem keys_foldl_add (draft : Draft) (items : List Item) :
    (items.foldl add draft).keys = draft.keys ++ items.filterMap Item.key? :=
  foldl_add_eq keys_add draft items

theorem warnings_outline (draft : Draft) : draft.outline.warnings = draft.warnings := by
  unfold outline
  split <;> rfl

/-- A draft is a fixed text when it has no keys. -/
theorem exists_outline_fixed_iff (draft : Draft) :
    (∃ text, draft.outline.result = .fixed text) ↔ draft.keys = [] := by
  unfold outline
  split
  · rename_i hkeys
    simpa using hkeys
  · rename_i hkeys
    simpa using hkeys

/-- Whatever items were gone through, segments and keys alternate. -/
theorem wellFormed_outline (draft : Draft) : draft.outline.result.WellFormed := by
  unfold outline
  split
  · trivial
  · rename_i hkeys
    exact ⟨by simpa using hkeys, draft.length_segments⟩

end Draft

namespace Message

/-- A message that is one piece of text raises no warning and has no placeholder. -/
theorem filterMap_of_text? {message : Message} {text : String}
    (htext : message.text? = some text) :
    message.items.filterMap Item.warning? = [] ∧ message.items.filterMap Item.key? = [] := by
  unfold text? at htext
  split at htext
  · rename_i item hitems
    rw [hitems]
    cases item <;> simp_all [Item.text?, Item.warning?, Item.key?]
  · simp at htext

/-- Outlining a message warns about its links, once for each and in their order. -/
theorem warnings_outline (message : Message) :
    message.outline.warnings = message.items.filterMap Item.warning? := by
  unfold outline
  cases htext : message.text? with
  | some text => exact (filterMap_of_text? htext).1.symm
  | none => simp [Draft.warnings_outline, Draft.warnings_foldl_add, Draft.empty]

/-- A message is outlined as a fixed text exactly when it has no placeholders, whether or
not it is one piece of text. -/
theorem exists_outline_fixed_iff (message : Message) :
    (∃ text, message.outline.result = .fixed text) ↔
      message.items.filterMap Item.key? = [] := by
  unfold outline
  cases htext : message.text? with
  | some text => simpa using (filterMap_of_text? htext).2
  | none =>
    rw [Draft.exists_outline_fixed_iff, Draft.keys_foldl_add]
    rfl

/-- The segments and keys of a message alternate. -/
theorem wellFormed_outline (message : Message) : message.outline.result.WellFormed := by
  unfold outline
  split
  · trivial
  · exact Draft.wellFormed_outline _

end Message

/-! ## Interpolations of segments and keys -/

namespace Interpolation

variable {segments : List String} {keys : List Key}

/-- An interpolation has the keys it was made with. -/
theorem keys_ofSegments (segments : List String) (keys : List Key) :
    (ofSegments segments keys).keys = keys := by
  induction keys generalizing segments with
  | nil => cases segments <;> rfl
  | cons key keys ih => cases segments <;> simp [ofSegments, ih]

/-- Segments that alternate with the keys are kept as they are. -/
theorem segments_ofSegments (hlength : segments.length = keys.length + 1) :
    (ofSegments segments keys).segments = segments := by
  induction keys generalizing segments with
  | nil =>
    obtain ⟨segment, rfl⟩ := List.length_eq_one_iff.mp hlength
    simp [ofSegments, ofText, Interpolation.segments]
  | cons key keys ih =>
    cases segments with
    | nil => simp at hlength
    | cons segment segments =>
      have hrest := @ih segments (by simpa using hlength)
      simp only [Interpolation.segments] at hrest
      simp [ofSegments, prepend, prependKey, Interpolation.segments, hrest]

end Interpolation

end Phrasebook

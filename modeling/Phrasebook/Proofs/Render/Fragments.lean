import Mathlib.Data.List.Chain
import Phrasebook.Proofs.Render.Meaning

/-!
# Fragments and texts

A phrase can be rendered as a text or as a list of fragments that keeps a slot for
every key.  The two renderers go through segments and keys in loops of their own: one
leaves out keys without an answer, and the other leaves out empty segments.  Filling
the slots gives the text all the same.

The lemmas hold for segments and keys of any number, because both loops take a missing
segment for an empty one and stop behind the last key.

Main results:

- Theorem `join_textIn_fragments`: filling the slots with the answers of a context
  gives the text.
- Theorem `filterMap_slot?_fragments`: the slots are the keys, in order.
- Theorem `isChain_fragments`: two texts never stand side by side.
- Theorem `renderers_agree`: all renderers on a phrase.
-/

namespace Phrasebook

/-! ## Reading fragments -/

namespace Fragment

/-- The text of a fragment in a context: a slot is filled with the answer to its key. -/
def textIn (context : Context) : Fragment → String
  | .text content => content
  | .slot key => (context key).getD ""

/-- The key that a slot is for. -/
def slot? : Fragment → Option Key
  | .text _ => none
  | .slot key => some key

/-- Whether a fragment is text. -/
def isText : Fragment → Bool
  | .text _ => true
  | .slot _ => false

/-- Between two neighbours there is a slot at least. -/
def Apart (first second : Fragment) : Prop :=
  first.isText = false ∨ second.isText = false

instance (first second : Fragment) : Decidable (Apart first second) :=
  inferInstanceAs (Decidable (_ ∨ _))

/-- A segment is text in every context, also when it is left out. -/
@[simp] theorem join_textIn_ofSegment (context : Context) (segment : String) :
    String.join ((ofSegment segment).map (textIn context)) = segment := by
  unfold ofSegment
  split
  · rename_i hempty
    rw [hempty]
    rfl
  · simp [textIn]

@[simp] theorem filterMap_slot?_ofSegment (segment : String) :
    (ofSegment segment).filterMap slot? = [] := by
  unfold ofSegment
  split <;> rfl

/-- A segment that is kept is not empty. -/
theorem empty_notMem_ofSegment (segment : String) : .text "" ∉ ofSegment segment := by
  unfold ofSegment
  split
  · simp
  · rename_i hsome
    simpa [eq_comm] using hsome

end Fragment

/-! ## Both loops side by side -/

namespace Renderer

open Fragment

/-- Filling the slots gives the answers, each with the segment behind it. -/
theorem join_textIn_slots (context : Context) (segments : List String) (keys : List Key) :
    String.join ((slots segments keys).map (textIn context)) =
      answers context segments keys := by
  induction keys generalizing segments with
  | nil => rfl
  | cons key keys ih =>
    simp [slots, answers, ih, textIn, Context.answer, String.append_assoc]

/-- Filling the slots with the answers of a context gives the text. -/
theorem join_textIn_fragments (context : Context) (segments : List String)
    (keys : List Key) :
    String.join ((fragments segments keys).map (textIn context)) =
      text context segments keys := by
  simp [fragments, text, join_textIn_slots]

theorem filterMap_slot?_slots (segments : List String) (keys : List Key) :
    (slots segments keys).filterMap slot? = keys := by
  induction keys generalizing segments with
  | nil => rfl
  | cons key keys ih => simp [slots, slot?, ih]

/-- The slots are the keys, in order. -/
theorem filterMap_slot?_fragments (segments : List String) (keys : List Key) :
    (fragments segments keys).filterMap slot? = keys := by
  simp [fragments, filterMap_slot?_slots]

theorem empty_notMem_slots (segments : List String) (keys : List Key) :
    .text "" ∉ slots segments keys := by
  induction keys generalizing segments with
  | nil => simp [slots]
  | cons key keys ih => simp [slots, empty_notMem_ofSegment, ih]

/-- No fragment is empty text. -/
theorem empty_notMem_fragments (segments : List String) (keys : List Key) :
    .text "" ∉ fragments segments keys := by
  simp [fragments, empty_notMem_ofSegment, empty_notMem_slots]

/-- A segment can stand before fragments that start with a slot, if they start at
all. -/
theorem isChain_ofSegment_append (segment : String) {rest : List Fragment}
    (hrest : rest.IsChain Apart) (hslot : ∀ fragment ∈ rest.head?, fragment.isText = false) :
    (ofSegment segment ++ rest).IsChain Apart := by
  unfold ofSegment
  split
  · exact hrest
  · rw [List.singleton_append, List.isChain_cons]
    exact ⟨fun fragment hfragment => Or.inr (hslot fragment hfragment), hrest⟩

/-- Slots with the segments behind them start with a slot. -/
theorem isText_head?_slots (segments : List String) (keys : List Key) :
    ∀ fragment ∈ (slots segments keys).head?, fragment.isText = false := by
  cases keys with
  | nil => simp [slots]
  | cons key keys => simp [slots, isText]

theorem isChain_slots (segments : List String) (keys : List Key) :
    (slots segments keys).IsChain Apart := by
  induction keys generalizing segments with
  | nil => exact .nil
  | cons key keys ih =>
    rw [slots, List.isChain_cons]
    refine ⟨fun fragment _ => Or.inl rfl, ?_⟩
    exact isChain_ofSegment_append _ (ih segments.tail) (isText_head?_slots _ _)

/-- Two texts never stand side by side. -/
theorem isChain_fragments (segments : List String) (keys : List Key) :
    (fragments segments keys).IsChain Apart :=
  isChain_ofSegment_append _ (isChain_slots _ _) (isText_head?_slots _ _)

end Renderer

/-! ## Phrases -/

/-- A phrase has one segment more than it has keys. -/
theorem Phrase.length_segments (phrase : Phrase) :
    phrase.segments.length = phrase.keys.length + 1 := by
  cases phrase with
  | fixed text => rfl
  | interpolated i => exact i.length_segments

/-- The text of a phrase is what both renderers make of it, once the slots among its
fragments are filled.  The slots are its keys, in order; texts are never empty and
never stand side by side.  Every renderer is handed one segment more than keys. -/
theorem renderers_agree (phrase : Phrase) (context : Context) :
    phrase.render (Renderer.text context) = phrase.evaluate context ∧
    String.join ((phrase.render Renderer.fragments).map (Fragment.textIn context)) =
      phrase.evaluate context ∧
    (phrase.render Renderer.fragments).filterMap Fragment.slot? = phrase.keys ∧
    .text "" ∉ phrase.render Renderer.fragments ∧
    (phrase.render Renderer.fragments).IsChain Fragment.Apart ∧
    ∃ segments : List String, segments.length = phrase.keys.length + 1 ∧
      ∀ (α : Type) (renderer : Renderer α),
        phrase.render renderer = renderer segments phrase.keys := by
  have htext := phrase.render_text context
  have hfilled : String.join ((phrase.render Renderer.fragments).map
      (Fragment.textIn context)) = phrase.evaluate context :=
    (Renderer.join_textIn_fragments context phrase.segments phrase.keys).trans htext
  exact ⟨htext, hfilled, Renderer.filterMap_slot?_fragments _ _,
    Renderer.empty_notMem_fragments _ _, Renderer.isChain_fragments _ _,
    phrase.segments, phrase.length_segments, fun α renderer => rfl⟩

/-- Empty segments are left out, and keys side by side keep their slots. -/
example :
    Phrase.render (.interpolated ⟨"", [(.named "a", ""), (.named "b", "!")]⟩)
        Renderer.fragments =
      [.slot (.named "a"), .slot (.named "b"), .text "!"] := by
  decide

end Phrasebook

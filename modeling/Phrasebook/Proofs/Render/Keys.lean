import Phrasebook.Proofs.Outline
import Phrasebook.Proofs.Render.Meaning

/-!
# What phrases ask for

A phrase asks a context for its keys and for nothing else.  Its keys are the placeholders
of the message that it was made of.  A key can be replaced by a text before the phrase is
rendered; that is the same as asking for the texts first and for the context only where
there is none.

Main results:

- Theorem `Phrase.evaluate_congr`: contexts that agree on the keys of a phrase give it the
  same text.
- Theorem `Message.keys_plan`: a phrase asks for the placeholders of its message.
- Definition `Phrase.fill`: a phrase with texts in the place of some keys.
- Theorem `Phrase.evaluate_fill`: replacing keys by texts is asking for the texts first.
-/

namespace Phrasebook

/-! ## The keys of a phrase -/

/-- Contexts that agree on the keys of a phrase give it the same text. -/
theorem Phrase.evaluate_congr {phrase : Phrase} {first second : Context}
    (hkeys : ∀ key ∈ phrase.keys, first key = second key) :
    phrase.evaluate first = phrase.evaluate second := by
  cases phrase with
  | fixed text => rfl
  | interpolated i =>
    have hrest : (i.rest.map fun step => first.answer step.1 ++ step.2) =
        i.rest.map fun step => second.answer step.1 ++ step.2 := by
      apply List.map_congr_left
      intro step hstep
      rw [Context.answer, Context.answer, hkeys step.1 (List.mem_map_of_mem hstep)]
    rw [evaluate, evaluate, Interpolation.evaluate, Interpolation.evaluate, hrest]

/-- A phrase asks for the placeholders of the message that it was made of, in order. -/
theorem Message.keys_plan (message : Message) :
    message.plan.result.keys = message.items.filterMap Item.key? := by
  rw [plan, Backend.emitMessage, Reported.result_map, outline]
  cases htext : message.text? with
  | some text => exact (filterMap_of_text? htext).2.symm
  | none =>
    have hkeys := Draft.empty.keys_foldl_add message.items
    rw [show Draft.empty.keys = [] from rfl, List.nil_append] at hkeys
    rw [← hkeys]
    simp only [Draft.outline]
    split
    · rename_i hnone
      exact (List.isEmpty_iff.mp hnone).symm
    · exact Interpolation.keys_ofSegments _ _

/-! ## Texts in the place of keys -/

namespace Interpolation

/-- Keys and the segments behind them, with texts in the place of some keys. -/
def fillRest (texts : Context) : List (Key × String) → Interpolation
  | [] => ofText ""
  | (key, segment) :: rest =>
      match texts key with
      | some text => (fillRest texts rest).prepend (text ++ segment)
      | none => ((fillRest texts rest).prepend segment).prependKey key

/-- An interpolation with texts in the place of some keys. -/
def fill (texts : Context) (i : Interpolation) : Interpolation :=
  (fillRest texts i.rest).prepend i.lead

variable (texts context : Context)

/-- A key that is replaced contributes its text, and any other what the context answers. -/
theorem evaluate_fillRest (rest : List (Key × String)) :
    (fillRest texts rest).evaluate context =
      String.join (rest.map fun step => (texts.layered context).answer step.1 ++ step.2) := by
  induction rest with
  | nil => simp [fillRest]
  | cons step rest ih =>
    rcases step with ⟨key, segment⟩
    have hanswer : (texts.layered context).answer key =
        (texts key).getD (context.answer key) := by
      cases htext : texts key <;> simp [Context.answer, Context.layered, htext]
    rw [fillRest, List.map_cons, String.join_cons, ← ih, hanswer]
    cases texts key <;> simp [String.append_assoc]

end Interpolation

namespace Phrase

/-- A phrase with texts in the place of some keys. -/
def fill (texts : Context) : Phrase → Phrase
  | .fixed text => .fixed text
  | .interpolated i => .interpolated (i.fill texts)

variable (texts context : Context) (phrase : Phrase)

/-- Replacing keys by texts is the same as asking for the texts first. -/
theorem evaluate_fill :
    (phrase.fill texts).evaluate context = phrase.evaluate (texts.layered context) := by
  cases phrase with
  | fixed text => rfl
  | interpolated i =>
    rw [fill, evaluate, evaluate, Interpolation.fill, Interpolation.evaluate_prepend,
      Interpolation.evaluate_fillRest, Interpolation.evaluate]

end Phrase

end Phrasebook

import Phrasebook.Proofs.Compile.Backends
import Phrasebook.Proofs.Script.Sources
import Phrasebook.Render.Renderer

/-!
# What messages say

The text of a message in a context is what its items contribute, one after another.
Planning regroups the items into segments and keys, and a renderer puts segments and
answers in turns again.  Neither step loses text, repeats it, or moves it across a
key.

Main results:

- Theorem `textIn_foldl_add`: the loop over the items keeps the text of the items
  that were gone through.
- Theorem `render_text`: joining segments and answers one by one gives the text of a
  phrase.
- Theorem `evaluate_eq_textIn`: a message made ready in memory, and one read back
  from its source, have the text of the message.
-/

namespace Phrasebook

/-! ## The text of a message -/

/-- What an item contributes: its text, the answer to its key, or nothing for a
link. -/
def Item.value (context : Context) : Item → String
  | .text value | .literal value => value
  | .placeholder key => (context key).getD ""
  | .linked _ _ => ""

/-- The text of a message in a context: what its items contribute, in order. -/
def Message.textIn (message : Message) (context : Context) : String :=
  String.join (message.items.map (Item.value context))

/-- An item that is nothing but text contributes that text in every context. -/
theorem Item.value_of_text? {item : Item} {text : String} (htext : item.text? = some text)
    (context : Context) : item.value context = text := by
  cases item with
  | text value => exact Option.some.inj htext
  | literal value => exact Option.some.inj htext
  | placeholder key => simp [Item.text?] at htext
  | linked key modifier => simp [Item.text?] at htext

/-- A message that is one piece of text has that text in every context. -/
theorem Message.textIn_of_text? {message : Message} {text : String}
    (htext : message.text? = some text) (context : Context) :
    message.textIn context = text := by
  unfold Message.text? at htext
  split at htext
  · rename_i item hitems
    simp [Message.textIn, hitems, Item.value_of_text? htext]
  · simp at htext

/-! ## Interpolations -/

namespace Interpolation

variable (context : Context)

@[simp] theorem evaluate_ofText (text : String) : (ofText text).evaluate context = text := by
  simp [ofText, evaluate]

@[simp] theorem evaluate_prepend (text : String) (i : Interpolation) :
    (i.prepend text).evaluate context = text ++ i.evaluate context := by
  simp [prepend, evaluate, String.append_assoc]

@[simp] theorem evaluate_prependKey (key : Key) (i : Interpolation) :
    (i.prependKey key).evaluate context = context.answer key ++ i.evaluate context := by
  simp [prependKey, evaluate, String.append_assoc]

/-- Segments and keys that were put in turns are evaluated in turns. -/
theorem evaluate_ofSegments (done : List (String × Key)) (current : String) :
    (ofSegments (done.map Prod.fst ++ [current]) (done.map Prod.snd)).evaluate context =
      String.join (done.map fun step => step.1 ++ context.answer step.2) ++ current := by
  induction done with
  | nil => simp [ofSegments]
  | cons step done ih => simp [ofSegments, ih, String.append_assoc]

end Interpolation

/-! ## The loop over the items -/

namespace Draft

variable (context : Context)

/-- The text of what has been made of the items so far. -/
def textIn (draft : Draft) : String :=
  String.join (draft.done.map fun step => step.1 ++ context.answer step.2) ++ draft.current

/-- One more item adds what it contributes, and nothing moves. -/
theorem textIn_add (draft : Draft) (item : Item) :
    (draft.add item).textIn context = draft.textIn context ++ item.value context := by
  cases item <;> simp [add, textIn, Item.value, Context.answer, String.append_assoc]

/-- The items add what they contribute in order. -/
theorem textIn_foldl_add (draft : Draft) (items : List Item) :
    (items.foldl add draft).textIn context =
      draft.textIn context ++ String.join (items.map (Item.value context)) := by
  induction items generalizing draft with
  | nil => simp
  | cons item items ih =>
    rw [List.foldl_cons, ih, textIn_add, List.map_cons, String.join_cons,
      String.append_assoc]

/-- The phrase of a draft has the text of the draft, whether or not there is a key. -/
theorem evaluate_outline (draft : Draft) :
    (treeBackend.emitOutline draft.outline.result).evaluate context =
      draft.textIn context := by
  unfold outline
  split
  · rename_i hkeys
    have hdone : draft.done = [] := by simpa [keys] using hkeys
    simp [Backend.emitOutline, treeBackend, Phrase.evaluate, segments, textIn, hdone]
  · exact Interpolation.evaluate_ofSegments context draft.done draft.current

end Draft

/-- The phrase of a message has the text of the message. -/
theorem Message.evaluate_plan (message : Message) (context : Context) :
    message.plan.result.evaluate context = message.textIn context := by
  simp only [Message.plan, Backend.emitMessage, Reported.result_map, Message.outline]
  cases htext : message.text? with
  | some text => exact (Message.textIn_of_text? htext context).symm
  | none =>
    rw [Draft.evaluate_outline, Draft.textIn_foldl_add]
    simp [Draft.empty, Draft.textIn, Message.textIn]

/-! ## Rendering -/

/-- The answers to the keys of an interpolation, each with the segment behind it. -/
theorem Renderer.answers_rest (context : Context) (rest : List (Key × String)) :
    Renderer.answers context (rest.map Prod.snd) (rest.map Prod.fst) =
      String.join (rest.map fun step => context.answer step.1 ++ step.2) := by
  induction rest with
  | nil => rfl
  | cons step rest ih => simp [Renderer.answers, ih]

/-- Joining segments and answers one by one gives the text of a phrase. -/
theorem Phrase.render_text (phrase : Phrase) (context : Context) :
    phrase.render (Renderer.text context) = phrase.evaluate context := by
  cases phrase with
  | fixed text => simp [Phrase.render, Renderer.text, Renderer.answers, Phrase.segments,
      Phrase.keys, Phrase.evaluate]
  | interpolated i => simp [Phrase.render, Renderer.text, Phrase.segments, Phrase.keys,
      Interpolation.segments, Interpolation.keys, Renderer.answers_rest, Phrase.evaluate,
      Interpolation.evaluate]

/-- Whatever the items of a message are, the phrase that is made of it in memory and
the phrase that is read back from its source have the text of the message in every
context, also when segments and answers are joined one by one. -/
theorem evaluate_eq_textIn (message : Message) (context : Context) :
    message.plan.result.evaluate context = message.textIn context ∧
    message.plan.result.render (Renderer.text context) = message.textIn context ∧
    ∃ phrase, Tree.ofSource message.compile.result = .ok (.cases (.single phrase)) ∧
      phrase.evaluate context = message.textIn context ∧
      phrase.render (Renderer.text context) = message.textIn context := by
  have hplan := message.evaluate_plan context
  have hrender := (message.plan.result.render_text context).trans hplan
  have hread := Script.ofSource_text (denotes_emitMessage message)
  exact ⟨hplan, hrender, message.plan.result, hread, hplan, hrender⟩

end Phrasebook

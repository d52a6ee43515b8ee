import Phrasebook.Phrase.Basic
import Phrasebook.Render.Context

/-!
# Rendering phrases

A renderer is handed the segments and keys of a phrase.  The two renderers here give a text, in
which each key is replaced by what a context answers, and a list of fragments, in which each key
keeps its place as a slot.  Keys without an answer contribute nothing.
-/

namespace Phrasebook

/-- What makes something of the segments and keys of a phrase. -/
abbrev Renderer (α : Type) := (segments : List String) → (keys : List Key) → α

/-- Hand the segments and keys of a phrase to a renderer. -/
def Phrase.render (phrase : Phrase) (renderer : Renderer α) : α :=
  renderer phrase.segments phrase.keys

/-! ## Text -/

/-- The text that a key contributes. -/
def Context.answer (context : Context) (key : Key) : String :=
  (context key).getD ""

/-- The answers to keys, each with the segment behind it. -/
def Renderer.answers (context : Context) : (segments : List String) → (keys : List Key) → String
  | _, [] => ""
  | segments, key :: keys =>
      context.answer key ++ segments.headD "" ++ answers context segments.tail keys

/-- The renderer that joins segments and answers to one text. -/
def Renderer.text (context : Context) : Renderer String := fun segments keys =>
  segments.headD "" ++ answers context segments.tail keys

/-- The text of an interpolation in a context. -/
def Interpolation.evaluate (i : Interpolation) (context : Context) : String :=
  i.lead ++ String.join (i.rest.map fun step => context.answer step.1 ++ step.2)

/-- The text of a phrase in a context. -/
def Phrase.evaluate (phrase : Phrase) (context : Context) : String :=
  match phrase with
  | .fixed text => text
  | .interpolated i => i.evaluate context

/-! ## Fragments -/

/-- A piece of structured output. -/
inductive Fragment where
  /-- Text, never empty. -/
  | text (text : String)
  /-- The place of a placeholder. -/
  | slot (key : Key)
  deriving DecidableEq

/-- A segment as a fragment, unless it is empty. -/
def Fragment.ofSegment (segment : String) : List Fragment :=
  if segment = "" then [] else [.text segment]

/-- The slots of keys, each with the segment behind it. -/
def Renderer.slots : (segments : List String) → (keys : List Key) → List Fragment
  | _, [] => []
  | segments, key :: keys =>
      .slot key :: (Fragment.ofSegment (segments.headD "") ++ slots segments.tail keys)

/-- The renderer that keeps segments as text and keys as slots. -/
def Renderer.fragments : Renderer (List Fragment) := fun segments keys =>
  Fragment.ofSegment (segments.headD "") ++ slots segments.tail keys

end Phrasebook

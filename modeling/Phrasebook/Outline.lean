import Phrasebook.Message
import Phrasebook.Warning

/-!
# Outlines of messages

Before a message is given a form, its text is joined into segments with a key between each two of
them.  A message without placeholders is outlined as one text.  Links are left out, and each one is
warned about.

The items are gone through once, in order.  What has been made of them so far is a draft.
-/

namespace Phrasebook

/-- What a message amounts to, whatever is made of it. -/
inductive Outline where
  /-- Text without placeholders. -/
  | fixed (text : String)
  /-- Segments of text with a key between each two of them. -/
  | segmented (segments : List String) (keys : List Key)
  deriving DecidableEq

/-- What the items so far amount to: the segments that are done, each with the key behind it, the
segment that still grows, and the warnings raised. -/
structure Draft where
  done : List (String × Key)
  current : String
  warnings : List Warning
  deriving DecidableEq

namespace Draft

/-- The draft of no items. -/
def empty : Draft := ⟨[], "", []⟩

/-- Go on with one more item. -/
def add (draft : Draft) : Item → Draft
  | .text value | .literal value => { draft with current := draft.current ++ value }
  | .placeholder key => { draft with done := draft.done ++ [(draft.current, key)], current := "" }
  | .linked key _ => { draft with warnings := draft.warnings ++ [.linkSkipped key] }

/-- The segments, in order. -/
def segments (draft : Draft) : List String :=
  draft.done.map Prod.fst ++ [draft.current]

/-- The keys, in order. -/
def keys (draft : Draft) : List Key :=
  draft.done.map Prod.snd

/-- A draft as an outline: without keys it is a fixed text. -/
def outline (draft : Draft) : Reported Outline :=
  if draft.keys.isEmpty then ⟨.fixed (String.join draft.segments), draft.warnings⟩
  else ⟨.segmented draft.segments draft.keys, draft.warnings⟩

/-- There is one segment more than there are keys. -/
theorem length_segments (draft : Draft) : draft.segments.length = draft.keys.length + 1 := by
  simp [segments, keys]

end Draft

/-- The outline of a message.  One that is exactly one piece of text needs no draft. -/
def Message.outline (message : Message) : Reported Outline :=
  match message.text? with
  | some text => ⟨.fixed text, []⟩
  | none => (message.items.foldl Draft.add Draft.empty).outline

end Phrasebook

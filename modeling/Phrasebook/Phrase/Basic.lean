import Phrasebook.Cases
import Phrasebook.Key

/-!
# Phrases

A phrase is a message made ready for rendering: a fixed text, or segments of text with a key
between each two of them.

An interpolation is kept as its first segment and, for every key, the segment behind it.  So there
is always one segment more than there are keys.
-/

namespace Phrasebook

/-- Segments of text with a key between each two of them. -/
structure Interpolation where
  /-- The segment before the first key. -/
  lead : String
  /-- The keys, each with the segment behind it. -/
  rest : List (Key × String)
  deriving DecidableEq

namespace Interpolation

/-- The segments, in order. -/
def segments (i : Interpolation) : List String :=
  i.lead :: i.rest.map Prod.snd

/-- The keys, in order. -/
def keys (i : Interpolation) : List Key :=
  i.rest.map Prod.fst

/-- The interpolation of one segment. -/
def ofText (text : String) : Interpolation :=
  ⟨text, []⟩

/-- Put text in front. -/
def prepend (text : String) (i : Interpolation) : Interpolation :=
  ⟨text ++ i.lead, i.rest⟩

/-- Put a key in front, with no text before it. -/
def prependKey (key : Key) (i : Interpolation) : Interpolation :=
  ⟨"", (key, i.lead) :: i.rest⟩

/-- The interpolation with these segments and keys.  Missing segments are empty, and the surplus
ones are joined to the last. -/
def ofSegments : (segments : List String) → (keys : List Key) → Interpolation
  | segments, [] => ofText (String.join segments)
  | [], key :: keys => prependKey key (ofSegments [] keys)
  | segment :: segments, key :: keys => prepend segment (prependKey key (ofSegments segments keys))

/-- There is one segment more than there are keys. -/
theorem length_segments (i : Interpolation) : i.segments.length = i.keys.length + 1 := by
  simp [segments, keys]

@[simp] theorem keys_prepend (text : String) (i : Interpolation) :
    (i.prepend text).keys = i.keys := rfl

@[simp] theorem keys_prependKey (key : Key) (i : Interpolation) :
    (i.prependKey key).keys = key :: i.keys := rfl

@[simp] theorem segments_prependKey (key : Key) (i : Interpolation) :
    (i.prependKey key).segments = "" :: i.segments := rfl

end Interpolation

/-- A message made ready for rendering. -/
inductive Phrase where
  /-- Text without placeholders. -/
  | fixed (text : String)
  /-- Text with placeholders. -/
  | interpolated (interpolation : Interpolation)
  deriving DecidableEq

namespace Phrase

/-- The text of a phrase without placeholders. -/
def text? : Phrase → Option String
  | .fixed text => some text
  | .interpolated _ => none

/-- The segments of a phrase; a fixed text is one segment. -/
def segments : Phrase → List String
  | .fixed text => [text]
  | .interpolated i => i.segments

/-- The keys of a phrase; a fixed text has none. -/
def keys : Phrase → List Key
  | .fixed _ => []
  | .interpolated i => i.keys

end Phrase

/-- What a message key stands for: one phrase, or a plural group of phrases. -/
abbrev Translation := Cases Phrase

end Phrasebook

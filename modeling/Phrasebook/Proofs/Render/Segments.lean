import Phrasebook.Proofs.Outline
import Phrasebook.Proofs.Render.Meaning

/-!
# Interpolations of any segments and keys

Segments and keys need not alternate to be made into an interpolation.  Missing
segments are empty ones at the end, and surplus segments are joined to the last.
Renderers leave out what stands behind the last segment they need, so this is where
text could be lost; none is.

Main results:

- Theorem `segments_ofSegments_eq`: the segments of an interpolation, from any given
  ones.
- Theorem `ofSegments_segments_keys`: segments and keys of an interpolation give that
  interpolation again.
- Theorem `evaluate_ofSegments_eq`: the text of an interpolation, from the given
  segments.
- Theorem `ofSegments_keeps_text`: no character is lost or moved, for any numbers of
  segments and keys.
-/

namespace Phrasebook.Interpolation

/-! ## Segments -/

@[simp] theorem segments_ofText (text : String) : (ofText text).segments = [text] := rfl

/-- A segment and a key in front of an interpolation are its first segment and key. -/
@[simp] theorem segments_prepend_prependKey (text : String) (key : Key) (i : Interpolation) :
    ((i.prependKey key).prepend text).segments = text :: i.segments := by
  simp [prepend, prependKey, Interpolation.segments]

/-- The segments that no key needs are joined to one.  Before that one stand the given
segments, and empty ones in the place of those that are missing. -/
theorem segments_ofSegments_eq (segments : List String) (keys : List Key) :
    (ofSegments segments keys).segments =
      segments.take keys.length ++
        (List.replicate (keys.length - segments.length) "" ++
          [String.join (segments.drop keys.length)]) := by
  induction keys generalizing segments with
  | nil => cases segments <;> simp [ofSegments]
  | cons key keys ih =>
    cases segments with
    | nil => simp [ofSegments, ih, List.replicate_succ]
    | cons segment segments => simp [ofSegments, ih]

private theorem join_replicate_empty (count : Nat) :
    String.join (List.replicate count "") = "" := by
  induction count with
  | zero => rfl
  | succ count ih => simp [List.replicate_succ, ih]

/-- Joined together, the segments are what the given ones are. -/
theorem join_segments_ofSegments (segments : List String) (keys : List Key) :
    String.join (ofSegments segments keys).segments = String.join segments := by
  calc String.join (ofSegments segments keys).segments
      = String.join (segments.take keys.length) ++
          String.join (segments.drop keys.length) := by
        simp [segments_ofSegments_eq, join_replicate_empty]
    _ = String.join segments := by
        rw [← String.join_append, List.take_append_drop]

/-- The segments and keys of an interpolation give that interpolation again. -/
theorem ofSegments_segments_keys (i : Interpolation) :
    ofSegments i.segments i.keys = i := by
  obtain ⟨lead, rest⟩ := i
  induction rest generalizing lead with
  | nil => simp [Interpolation.segments, Interpolation.keys, ofSegments, ofText]
  | cons step rest ih =>
    have hrest := ih step.2
    simp only [Interpolation.segments, Interpolation.keys] at hrest
    simp [Interpolation.segments, Interpolation.keys, ofSegments, prepend, prependKey, hrest]

/-! ## Text -/

section

variable (context : Context)

/-- The segment at a place, or nothing where none is given. -/
def segmentAt (segments : List String) (place : Nat) : String :=
  segments[place]?.getD ""

/-- Before the answer to each key stands the segment in its place, and behind the last
one all segments that are left. -/
theorem evaluate_ofSegments_eq (segments : List String) (keys : List Key) :
    (ofSegments segments keys).evaluate context =
      String.join (keys.mapIdx fun place key =>
        segmentAt segments place ++ (context key).getD "") ++
          String.join (segments.drop keys.length) := by
  induction keys generalizing segments with
  | nil => cases segments <;> simp [ofSegments]
  | cons key keys ih =>
    cases segments with
    | nil => simp [ofSegments, ih, segmentAt, Context.answer]
    | cons segment segments =>
      simp [ofSegments, ih, segmentAt, Context.answer, String.append_assoc]

/-- All characters of the segments are in the text, in order. -/
theorem join_segments_sublist_evaluate (i : Interpolation) :
    (String.join i.segments).toList.Sublist (i.evaluate context).toList := by
  have hrest : ∀ rest : List (Key × String),
      (String.join (rest.map Prod.snd)).toList.Sublist
        (String.join (rest.map fun step => context.answer step.1 ++ step.2)).toList := by
    intro rest
    induction rest with
    | nil => exact List.Sublist.refl _
    | cons step rest ih =>
      have hstep : step.2.toList.Sublist (context.answer step.1 ++ step.2).toList := by
        rw [String.toList_append]
        exact List.sublist_append_right _ _
      simpa only [List.map_cons, String.join_cons, String.toList_append] using hstep.append ih
  simpa only [Interpolation.segments, evaluate, String.join_cons, String.toList_append]
    using (List.Sublist.refl i.lead.toList).append (hrest i.rest)

end

/-- Segments and keys of any numbers are made into an interpolation with these keys, one
segment more, and the same text.  The given segments before the place behind the last
key stay where they are, segments that alternate with the keys are kept as they are, and
making an interpolation of its own segments and keys changes nothing.  So every given
character is put out in every context, in order and between the answers it was given
between. -/
theorem ofSegments_keeps_text (segments : List String) (keys : List Key) :
    (ofSegments segments keys).keys = keys ∧
    (ofSegments segments keys).segments.length = keys.length + 1 ∧
    String.join (ofSegments segments keys).segments = String.join segments ∧
    segments.take keys.length <+: (ofSegments segments keys).segments ∧
    (segments.length = keys.length + 1 → (ofSegments segments keys).segments = segments) ∧
    ofSegments (ofSegments segments keys).segments (ofSegments segments keys).keys =
      ofSegments segments keys ∧
    ∀ context : Context,
      (Phrase.interpolated (ofSegments segments keys)).evaluate context =
        String.join (keys.mapIdx fun place key =>
          segmentAt segments place ++ (context key).getD "") ++
            String.join (segments.drop keys.length) ∧
      (Phrase.interpolated (ofSegments segments keys)).render (Renderer.text context) =
        (Phrase.interpolated (ofSegments segments keys)).evaluate context ∧
      (String.join segments).toList.Sublist
        ((Phrase.interpolated (ofSegments segments keys)).evaluate context).toList := by
  refine ⟨keys_ofSegments segments keys, ?_, join_segments_ofSegments segments keys, ?_,
    segments_ofSegments, ofSegments_segments_keys _, ?_⟩
  · rw [length_segments, keys_ofSegments]
  · rw [segments_ofSegments_eq]
    exact List.prefix_append _ _
  · intro context
    refine ⟨evaluate_ofSegments_eq context segments keys, Phrase.render_text _ context, ?_⟩
    rw [← join_segments_ofSegments segments keys]
    exact join_segments_sublist_evaluate context _

theorem ofSegments_keeps_text_alternating :
    ["", "a", ""].length = [Key.named "n", .named "n"].length + 1 ∧
      (ofSegments ["", "a", ""] [.named "n", .named "n"]).segments = ["", "a", ""] := by
  have hlength : ["", "a", ""].length = [Key.named "n", .named "n"].length + 1 := rfl
  obtain ⟨-, -, -, -, hsame, -⟩ := ofSegments_keeps_text ["", "a", ""] [.named "n", .named "n"]
  exact ⟨hlength, hsame hlength⟩

/-- Two segments too many are put out behind the last key. -/
example : (ofSegments ["a", "b", "c", "d"] [.named "n"]).evaluate (fun _ => some "-") =
    "a-bcd" := by
  decide

end Phrasebook.Interpolation

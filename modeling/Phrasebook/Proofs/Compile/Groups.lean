import Phrasebook.Proofs.Compile.RoundTrip
import Phrasebook.Proofs.Template.Cases

/-!
# Plural groups written out

A plural group can be written as one template or, case by case, as an array.  The
cases of a template are templates with one case each, so writing them out gives the
same group, wherever it stands in a document and whatever is made of it.

Main results:

- Definition `Json.plug`: a value at a place in a document.
- Theorem `Json.Alike.plug`: values of which the same is made are alike at every place.
- Theorem `alike_split`: a plural template and the array of its cases are alike.
- Theorem `split_written_out`: so they give the same tree and the same sources.
-/

namespace Phrasebook

open Template Text

/-! ## Places in documents -/

namespace Json

/-- What surrounds a value in the object or array that it stands in. -/
inductive Frame where
  | entry (before : List (String × Json)) (name : String) (after : List (String × Json))
  | item (before after : List Json)

/-- The object or array with a value at its place. -/
def Frame.plug (value : Json) : Frame → Json
  | .entry before name after => .object (before ++ (name, value) :: after)
  | .item before after => .array (before ++ value :: after)

/-- The document with a value at its place.  The frames are those around the value, the
innermost first. -/
def plug (value : Json) (frames : List Frame) : Json :=
  frames.foldl Frame.plug value

/-- Two values of which every backend makes the same, and which are the same message if
they are one at all. -/
structure Alike (value other : Json) : Prop where
  emitted : ∀ {μ τ : Type} (backend : Backend μ τ),
    backend.emitValue value = backend.emitValue other
  message : value.message? = other.message?

/-- Arrays that differ in values which are alike are the same plural groups. -/
theorem Alike.group?_eq {value other : Json} (halike : value.Alike other)
    (before after : List Json) :
    group? (before ++ value :: after) = group? (before ++ other :: after) := by
  simp [group?, List.mapM_append, List.mapM_cons, halike.message]

/-- Values that are alike are alike in the same frame. -/
theorem Alike.frame {value other : Json} (halike : value.Alike other) (frame : Frame) :
    (frame.plug value).Alike (frame.plug other) := by
  cases frame with
  | entry before name after =>
    refine ⟨fun backend => ?_, rfl⟩
    simp [Frame.plug, Backend.emitValue, Backend.emitEntries_eq_map, halike.emitted backend]
  | item before after =>
    refine ⟨fun backend => ?_, rfl⟩
    simp [Frame.plug, Backend.emitValue, Backend.emitItems_eq_map, halike.group?_eq,
      halike.emitted backend]

/-- Values that are alike are alike at the same place of a document. -/
theorem Alike.plug {value other : Json} (halike : value.Alike other) (frames : List Frame) :
    (value.plug frames).Alike (other.plug frames) := by
  induction frames generalizing value other with
  | nil => exact halike
  | cons frame frames ih => exact ih (halike.frame frame)

/-- Objects that are alike give the same tree and are printed as the same sources. -/
theorem Alike.compiled {value other : Json} (halike : value.Alike other)
    (hvalue : value.kind = .object) (hother : other.kind = .object) :
    ∃ planned source module, value.plan = .ok planned ∧ other.plan = .ok planned ∧
      value.compile = .ok source ∧ other.compile = .ok source ∧
      value.compileModule = .ok module ∧ other.compileModule = .ok module := by
  have hplan := emitInput_of_fit treeBackend (Or.inr hother)
  have hsource := compile_of_fit (Or.inr hother)
  have hmodule := compileModule_of_fit (Or.inr hother)
  rw [← halike.emitted] at hplan hsource hmodule
  exact ⟨_, _, _, emitInput_of_fit treeBackend (Or.inr hvalue), hplan,
    compile_of_fit (Or.inr hvalue), hsource, compileModule_of_fit (Or.inr hvalue), hmodule⟩

end Json

/-! ## Plural templates -/

section

variable {template : String}

/-- A case of a template is a template with one case. -/
theorem message?_of_mem_split {segment : String} (hsegment : segment ∈ split template) :
    Json.message? (.string segment) = some (parseCase segment) := by
  simp [Json.message?, parse, split_of_mem_split hsegment]

/-- The cases of a template make up a plural group. -/
theorem group?_split (template : String) :
    Json.group? ((split template).map .string) = some ((split template).map parseCase) := by
  have hsome : ((split template).map Json.string).isEmpty = false := by
    simp [split, cut_ne_nil]
  rw [Json.group?, hsome, if_neg Bool.false_ne_true, List.mapM_map]
  exact mapM_eq_map fun segment hsegment => message?_of_mem_split hsegment

/-- A template with more than one case is a plural group of its cases. -/
theorem parse_eq_plural (hplural : 2 ≤ (split template).length) :
    parse template = .plural ((split template).map parseCase) := by
  unfold parse
  split
  · rename_i hone
    have hlength := congrArg List.length hone
    rw [List.length_map, List.length_singleton] at hlength
    omega
  · rfl

/-- A template with more than one case and the array of its cases are alike. -/
theorem alike_split (hplural : 2 ≤ (split template).length) :
    (Json.string template).Alike (.array ((split template).map .string)) := by
  refine ⟨fun backend => ?_, ?_⟩
  · simp only [Backend.emitValue, group?_split, parse_eq_plural hplural]
  · simp only [Json.message?, parse_eq_plural hplural]

end

/-- The cases of a template have no white space at their ends and no other case than
themselves.  Where an object has a template with more than one case, in an entry of its
own or deeper in it, the array of these cases gives the same tree and the same
sources. -/
theorem split_written_out (template : String) (hplural : 2 ≤ (split template).length) :
    (∀ segment ∈ split template,
      trim segment.toList = segment.toList ∧ split segment = [segment]) ∧
    ∀ before name after frames,
      let document := fun value : Json =>
        Json.object (before ++ (name, value.plug frames) :: after)
      let written := Json.array ((split template).map .string)
      ∃ planned source module,
        (document (.string template)).plan = .ok planned ∧
        (document written).plan = .ok planned ∧
        (document (.string template)).compile = .ok source ∧
        (document written).compile = .ok source ∧
        (document (.string template)).compileModule = .ok module ∧
        (document written).compileModule = .ok module := by
  refine ⟨fun segment hsegment => ⟨trim_of_mem_split hsegment, split_of_mem_split hsegment⟩, ?_⟩
  intro before name after frames document written
  have hplace := (alike_split hplural).plug frames
  exact (hplace.frame (.entry before name after)).compiled rfl rfl

/-- A template with an escaped bar, a bar in a literal token and a placeholder. -/
def guardedTemplate : String :=
  "one \\| cat | \x7b'|'\x7d {n} cats"

theorem split_written_out_guarded :
    2 ≤ (split guardedTemplate).length ∧
      split guardedTemplate = ["one \\| cat", "\x7b'|'\x7d {n} cats"] ∧
      (∀ segment ∈ split guardedTemplate,
        trim segment.toList = segment.toList ∧ split segment = [segment]) ∧
      ∃ planned source module,
        (Json.object [("cats", .string guardedTemplate)]).plan = .ok planned ∧
        (Json.object [("cats", .array ((split guardedTemplate).map .string))]).plan =
          .ok planned ∧
        (Json.object [("cats", .string guardedTemplate)]).compile = .ok source ∧
        (Json.object [("cats", .array ((split guardedTemplate).map .string))]).compile =
          .ok source ∧
        (Json.object [("cats", .string guardedTemplate)]).compileModule = .ok module ∧
        (Json.object [("cats", .array ((split guardedTemplate).map .string))]).compileModule =
          .ok module := by
  have hsplit : split guardedTemplate = ["one \\| cat", "\x7b'|'\x7d {n} cats"] := by
    decide +kernel
  have hplural : 2 ≤ (split guardedTemplate).length := by
    rw [hsplit]
    decide
  obtain ⟨hsegments, hdocuments⟩ := split_written_out guardedTemplate hplural
  exact ⟨hplural, hsplit, hsegments, hdocuments [] "cats" [] []⟩

end Phrasebook

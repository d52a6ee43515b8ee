import Phrasebook.Proofs.Compile.Backends
import Phrasebook.Proofs.Template.NormalForm

/-!
# Compiling raises no warnings

Links are the only thing that compiling warns about, and templates hold none.  So
whatever is made of a template, or of a value with templates in it, is made without a
warning.

Main results:

- Theorem `warnings_emitCases_parse`: nothing made of a template raises a warning.
- Theorem `warnings_emitValue`: nothing made of a value does.
- Theorem `warnings_emitInput`: so compiling raises none.
-/

namespace Phrasebook

variable {μ τ : Type}

/-! ## Templates -/

/-- Messages in normal form raise no warnings. -/
theorem warnings_emitCases_of_normal (backend : Backend μ τ) {cases : Cases Message}
    (hcases : ∀ message ∈ cases.toList, message.Normal) :
    (backend.emitCases cases).warnings = [] := by
  rw [warnings_emitCases, List.flatMap_eq_nil_iff]
  exact fun message hmessage => (hcases message hmessage).filterMap_warning?

/-- Nothing made of a template raises a warning. -/
theorem warnings_emitCases_parse (backend : Backend μ τ) (template : String) :
    (backend.emitCases (Template.parse template)).warnings = [] :=
  warnings_emitCases_of_normal backend fun _ => Template.normal_of_mem_parse

/-- Planning a template raises no warning. -/
theorem Template.warnings_plan (template : String) : (Template.plan template).warnings = [] := by
  have htree := congrArg Reported.warnings (emitCases_treeBackend (Template.parse template))
  rw [warnings_emitCases_parse] at htree
  exact htree.symm

/-- Compiling a template raises no warning. -/
theorem Template.warnings_compile (template : String) :
    (Template.compile template).warnings = [] :=
  warnings_emitCases_parse scriptBackend template

section

variable {template : String} {message : Message}

/-- A template with one case is planned as its message. -/
theorem Template.plan_of_parse_single (hparse : parse template = .single message) :
    Template.plan template = ⟨.single message.plan.result, []⟩ := by
  rw [← warnings_plan template, Template.plan, hparse]
  rfl

/-- A template with one case is compiled as its message. -/
theorem Template.compile_of_parse_single (hparse : parse template = .single message) :
    Template.compile template = ⟨message.compile.result, []⟩ := by
  rw [← warnings_compile template, Template.compile, hparse]
  rfl

end

/-! ## Values -/

/-- The messages of a plural group that is written out are in normal form. -/
theorem normal_of_mem_group {items : List Json} {messages : List Message}
    (hgroup : Json.group? items = some messages) : ∀ message ∈ messages, message.Normal := by
  intro message hmessage
  unfold Json.group? at hgroup
  split at hgroup
  · simp at hgroup
  · obtain ⟨item, -, hitem⟩ := exists_of_mem_mapM hgroup hmessage
    cases item with
    | string template =>
      simp only [Json.message?] at hitem
      split at hitem
      · rename_i single hparse
        have hmember : message ∈ (Template.parse template).toList := by
          rw [hparse, ← Option.some.inj hitem]
          exact List.mem_singleton_self _
        exact Template.normal_of_mem_parse hmember
      · cases hitem
    | _ => cases hitem

mutual

/-- Nothing made of a value raises a warning. -/
theorem warnings_emitValue (backend : Backend μ τ) : ∀ value : Json,
    (backend.emitValue value).warnings = []
  | .scalar value => by rw [Backend.emitValue]
  | .string template => by
      rw [Backend.emitValue]
      exact warnings_emitCases_parse backend template
  | .array items => by
      rw [Backend.emitValue]
      cases hgroup : Json.group? items with
      | some messages => exact warnings_emitCases_of_normal backend (normal_of_mem_group hgroup)
      | none =>
        simpa [Reported.all, Backend.emitItems_eq_map] using warnings_emitItems backend items
  | .object entries => by
      rw [Backend.emitValue]
      simp only [Reported.allEntries, Backend.emitEntries_eq_map, Reported.warnings_map,
        List.flatMap_map, List.flatMap_eq_nil_iff]
      exact warnings_emitEntries backend entries

/-- Nothing made of the items of an array does. -/
theorem warnings_emitItems (backend : Backend μ τ) : ∀ items : List Json,
    ∀ item ∈ items, (backend.emitValue item).warnings = []
  | [] => by simp
  | first :: others => by
      rw [List.forall_mem_cons]
      exact ⟨warnings_emitValue backend first, warnings_emitItems backend others⟩

/-- Nothing made of the entries of an object does. -/
theorem warnings_emitEntries (backend : Backend μ τ) : ∀ entries : List (String × Json),
    ∀ entry ∈ entries, (backend.emitValue entry.2).warnings = []
  | [] => by simp
  | (name, value) :: others => by
      rw [List.forall_mem_cons]
      exact ⟨warnings_emitValue backend value, warnings_emitEntries backend others⟩

end

/-- Nothing made of an input raises a warning. -/
theorem warnings_emitInput {backend : Backend μ τ} {input : Json} {emitted : Reported τ}
    (hemitted : backend.emitInput input = .ok emitted) : emitted.warnings = [] := by
  unfold Backend.emitInput at hemitted
  split at hemitted
  · exact Except.ok.inj hemitted ▸ warnings_emitValue backend input
  · exact Except.ok.inj hemitted ▸ warnings_emitValue backend input
  · cases hemitted

namespace Json

variable {input : Json} {made : Reported String}

/-- Planning an input raises no warning. -/
theorem warnings_plan {planned : Reported (Tree Phrase)} (hplanned : input.plan = .ok planned) :
    planned.warnings = [] :=
  warnings_emitInput hplanned

/-- Compiling an input raises no warning. -/
theorem warnings_compile (hmade : input.compile = .ok made) : made.warnings = [] := by
  obtain ⟨emitted, hemitted, rfl⟩ := Text.ok_of_map hmade
  rw [Reported.warnings_map]
  exact warnings_emitInput hemitted

/-- Compiling a module raises no warning. -/
theorem warnings_compileModule (hmade : input.compileModule = .ok made) :
    made.warnings = [] := by
  obtain ⟨emitted, hemitted, rfl⟩ := Text.ok_of_map hmade
  rw [Reported.warnings_map]
  exact warnings_emitInput hemitted

end Json

end Phrasebook

import Mathlib.Data.List.Perm.Basic
import Phrasebook.Proofs.Bundle.Collisions

/-!
# Reports and outcomes

A run over several files works on those without rivals, one after the other, and reports
on each as it goes.  This module takes the two apart: first there are the outcomes of all
files, and then a report that is made of them.

Main results:

- Theorem `compileAll_eq`: a run makes its report of the outcomes of the single files.
- Theorem `emitted_ofOutcomes`: a report lists the modules that were stored.
- Theorem `failures_ofOutcomes`: a report lists the collisions and then the faults.
- Theorem `warnings_ofOutcomes`: a report lists the warnings about all files.
-/

namespace Phrasebook.Bundle

/-- What became of a file. -/
abbrev Outcome := Path × Except FileFault (Reported Path)

namespace Outcome

/-- The module that was stored, if one was. -/
def emitted? (outcome : Outcome) : Option Emitted :=
  match outcome.2 with
  | .ok stored => some ⟨outcome.1, stored.result⟩
  | .error _ => none

/-- The file and its fault, if there is one. -/
def fault? (outcome : Outcome) : Option (Path × FileFault) :=
  match outcome.2 with
  | .ok _ => none
  | .error fault => some (outcome.1, fault)

/-- The warnings about the file. -/
def warnings (outcome : Outcome) : List FileWarning :=
  match outcome.2 with
  | .ok stored => stored.warnings.map (⟨outcome.1, ·⟩)
  | .error _ => []

/-- The module of an outcome was stored, and its path is the result. -/
theorem emitted?_eq_some_iff {outcome : Outcome} {e : Emitted} :
    outcome.emitted? = some e ↔
      ∃ stored, outcome = (e.input, .ok stored) ∧ stored.result = e.output := by
  obtain ⟨input, output⟩ := e
  obtain ⟨own, stored | fault⟩ := outcome
  · simp [emitted?]
  · simp [emitted?]

/-- The fault of an outcome is its result. -/
theorem fault?_eq_some_iff {outcome : Outcome} {f : Path × FileFault} :
    outcome.fault? = some f ↔ outcome = (f.1, .error f.2) := by
  obtain ⟨input, fault⟩ := f
  obtain ⟨own, stored | found⟩ := outcome
  · simp [fault?]
  · simp [fault?]

/-- Outcomes are those with a module and those with a fault. -/
theorem perm_emitted_fault (outcomes : List Outcome) :
    ((outcomes.filterMap emitted?).map Emitted.input ++
      (outcomes.filterMap fault?).map Prod.fst).Perm (outcomes.map Prod.fst) := by
  induction outcomes with
  | nil => exact .refl _
  | cons outcome outcomes ih =>
    obtain ⟨input, stored | fault⟩ := outcome
    · exact List.perm_middle.trans (ih.cons input)
    · exact ih.cons input

/-- The modules that were stored are in the order of the outcomes. -/
theorem emitted_sublist (outcomes : List Outcome) :
    ((outcomes.filterMap emitted?).map Emitted.input).Sublist (outcomes.map Prod.fst) := by
  induction outcomes with
  | nil => exact .slnil
  | cons outcome outcomes ih =>
    obtain ⟨input, stored | fault⟩ := outcome
    · exact ih.cons input
    · exact ih.cons_cons input

/-- The faults are in the order of the outcomes. -/
theorem fault_sublist (outcomes : List Outcome) :
    ((outcomes.filterMap fault?).map Prod.fst).Sublist (outcomes.map Prod.fst) := by
  induction outcomes with
  | nil => exact .slnil
  | cons outcome outcomes ih =>
    obtain ⟨input, stored | fault⟩ := outcome
    · exact ih.cons_cons input
    · exact ih.cons input

end Outcome

/-! ## Reports and outcomes -/

/-- The report on some inputs by what became of those without rivals. -/
def Report.ofOutcomes (directory : Option Path) (inputs : List Path) (outcomes : List Outcome) :
    Report :=
  outcomes.foldl (fun report outcome => report.add outcome.1 outcome.2)
    { failures := collisions directory inputs }

/-- Going on with an outcome adds its module, if there is one. -/
theorem Report.emitted_add (report : Report) (outcome : Outcome) :
    (report.add outcome.1 outcome.2).emitted = report.emitted ++ outcome.emitted?.toList := by
  obtain ⟨input, stored | fault⟩ := outcome <;> simp [Report.add, Outcome.emitted?]

/-- Going on with an outcome adds its fault, if there is one. -/
theorem Report.failures_add (report : Report) (outcome : Outcome) :
    (report.add outcome.1 outcome.2).failures =
      report.failures ++ outcome.fault?.toList.map fun fault => .file fault.2 := by
  obtain ⟨input, stored | fault⟩ := outcome <;> simp [Report.add, Outcome.fault?]

/-- Going on with an outcome adds its warnings. -/
theorem Report.warnings_add (report : Report) (outcome : Outcome) :
    (report.add outcome.1 outcome.2).warnings = report.warnings ++ outcome.warnings := by
  obtain ⟨input, stored | fault⟩ := outcome <;> simp [Report.add, Outcome.warnings]

/-- A report lists the modules that were stored. -/
theorem emitted_ofOutcomes (directory : Option Path) (inputs : List Path)
    (outcomes : List Outcome) :
    (Report.ofOutcomes directory inputs outcomes).emitted =
      outcomes.filterMap Outcome.emitted? := by
  induction outcomes using List.reverseRecOn with
  | nil => rfl
  | append_singleton outcomes outcome ih =>
    unfold Report.ofOutcomes at ih ⊢
    rw [List.foldl_append, List.foldl_cons, List.foldl_nil, Report.emitted_add, ih,
      List.filterMap_append]
    cases hstored : outcome.emitted? <;> simp [hstored]

/-- A report lists the collisions and then the faults. -/
theorem failures_ofOutcomes (directory : Option Path) (inputs : List Path)
    (outcomes : List Outcome) :
    (Report.ofOutcomes directory inputs outcomes).failures =
      collisions directory inputs ++
        (outcomes.filterMap Outcome.fault?).map fun fault => .file fault.2 := by
  induction outcomes using List.reverseRecOn with
  | nil => simp [Report.ofOutcomes]
  | append_singleton outcomes outcome ih =>
    unfold Report.ofOutcomes at ih ⊢
    rw [List.foldl_append, List.foldl_cons, List.foldl_nil, Report.failures_add, ih,
      List.filterMap_append]
    cases hfault : outcome.fault? <;> simp [hfault]

/-- A report lists the warnings about all files. -/
theorem warnings_ofOutcomes (directory : Option Path) (inputs : List Path)
    (outcomes : List Outcome) :
    (Report.ofOutcomes directory inputs outcomes).warnings =
      outcomes.flatMap Outcome.warnings := by
  induction outcomes using List.reverseRecOn with
  | nil => rfl
  | append_singleton outcomes outcome ih =>
    unfold Report.ofOutcomes at ih ⊢
    rw [List.foldl_append, List.foldl_cons, List.foldl_nil, Report.warnings_add, ih,
      List.flatMap_append, List.flatMap_singleton]

section Runs

variable {m : Type → Type} [Monad m] [LawfulMonad m] [Storage m]

/-- Compile an input, and say which one it was. -/
def compileLabelled (directory : Option Path) (input : Path) : m Outcome :=
  (input, ·) <$> compileFile directory input

/-- The report is made of the outcomes of the single files. -/
theorem compileAll_eq (directory : Option Path) (inputs : List Path) :
    (compileAll directory inputs : m Report) =
      Report.ofOutcomes directory inputs <$>
        (unrivalled directory inputs).mapM (compileLabelled directory) := by
  have hfold : ∀ (todo : List Path) (start : Report),
      (todo.foldlM (fun report input => return report.add input (← compileFile directory input))
          start : m Report) =
        (fun outcomes : List Outcome =>
            outcomes.foldl (fun report outcome => report.add outcome.1 outcome.2) start) <$>
          todo.mapM (compileLabelled directory) := by
    intro todo
    induction todo with
    | nil => simp
    | cons input todo ih =>
      intro start
      simp only [List.foldlM_cons, List.mapM_cons, compileLabelled, bind_assoc, pure_bind,
        ih, bind_map_left, map_bind, map_pure, List.foldl_cons]
      simp
  exact hfold _ _

end Runs

end Phrasebook.Bundle

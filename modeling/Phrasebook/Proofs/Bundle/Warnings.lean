import Phrasebook.Proofs.Bundle.Parallel
import Phrasebook.Proofs.Compile.Warnings

/-!
# Runs raise no warnings

A run warns about what compiling its files warns about, and that is nothing, whatever the
files hold and whatever the storage does.

Main results:

- Theorem `returns_compileFile`: no file is compiled with a warning.
- Theorems `warnings_eq_nil_of_parallelRun` and `warnings_eq_nil_of_run`: no run reports
  a warning.
- Theorem `parse_normal`: templates are parsed into messages in normal form, so nothing
  is ever warned about that is compiled or run.
-/

namespace Phrasebook.Bundle

/-! ## Files -/

/-- A module is made without a warning, if one is made. -/
def Quiet {α : Type} (outcome : Except FileFault (Reported α)) : Prop :=
  ∀ made, outcome = .ok made → made.warnings = []

/-- The module of a text is made without a warning. -/
theorem quiet_moduleOf (path : Path) (text : String) : Quiet (moduleOf path text) := by
  intro made hmade
  obtain ⟨value, -, hmodule⟩ := exists_value_of_moduleOf hmade
  exact Json.warnings_compileModule hmodule

theorem quiet_error {α : Type} (fault : FileFault) :
    Quiet (.error fault : Except FileFault (Reported α)) := by
  rintro made ⟨⟩

/-- The module of a file is made without a warning. -/
theorem returns_readModule (input : Path) :
    (readModule input : Program _).Returns Quiet := by
  rw [readModule_eq]
  refine .ask fun bytes? => .done ?_
  cases bytes? with
  | error refusal => exact quiet_error _
  | ok bytes =>
    simp only [moduleOfRead]
    split
    · exact quiet_moduleOf input _
    · exact quiet_error _

/-- A file is compiled without a warning. -/
theorem returns_compileFile (directory : Option Path) (input : Path) :
    (compileFile directory input : Program _).Returns Quiet := by
  unfold compileFile
  refine (returns_readModule input).bind fun made? hmade => ?_
  cases made? with
  | error fault => exact .done (quiet_error fault)
  | ok made =>
    refine (Program.returns_any _).bind fun stored? _ => .done ?_
    intro stored hstored
    obtain ⟨-, -, rfl⟩ := Text.ok_of_map hstored
    exact hmade made rfl

/-! ## Runs -/

section Runs

variable {σ : Type} [Storage (StateM σ)] {settings : Settings} {report : Report}
  {start final : σ}

/-- No run with files side by side reports a warning. -/
theorem warnings_eq_nil_of_parallelRun
    (hrun : ParallelRun settings start (.ok report) final) : report.warnings = [] := by
  cases hrun with
  | @compiled inputs outcomes found final hsome hdiscover hsteps =>
    have htasks : ∀ task ∈ tasksOf settings.directory (unrivalled settings.directory inputs),
        task.2.Returns Quiet := by
      intro task htask
      obtain ⟨input, -, rfl⟩ := List.mem_map.mp htask
      exact returns_compileFile settings.directory input
    have hquiet := Program.returns_of_steps (fun _ => Quiet) hsteps htasks
    rw [warnings_ofOutcomes, List.flatMap_eq_nil_iff]
    intro outcome houtcome
    have hnone := hquiet outcome houtcome
    unfold Outcome.warnings
    split
    · rename_i stored hstored
      rw [hnone stored hstored, List.map_nil]
    · rfl

/-- No run with one file after the other does. -/
theorem warnings_eq_nil_of_run
    (hrun : (run settings : StateM σ _).run start = (.ok report, final)) :
    report.warnings = [] := by
  have hparallel := parallelRun_run settings start
  rw [hrun] at hparallel
  exact warnings_eq_nil_of_parallelRun hparallel

end Runs

end Phrasebook.Bundle

namespace Phrasebook

open Phrasebook.Bundle

/-- Every template is parsed into one message or into a group of two at least, each of them
in normal form.  So no warning is raised by compiling a template or an input in any way,
nor by any run over files, one after the other or side by side. -/
theorem parse_normal :
    (∀ template, (Template.parse template).toList ≠ [] ∧
      (∀ messages, Template.parse template = .plural messages → 2 ≤ messages.length) ∧
      (∀ message ∈ (Template.parse template).toList, message.Normal) ∧
      (Template.plan template).warnings = [] ∧ (Template.compile template).warnings = []) ∧
    (∀ input : Json, (∀ planned, input.plan = .ok planned → planned.warnings = []) ∧
      (∀ made, input.compile = .ok made → made.warnings = []) ∧
      (∀ made, input.compileModule = .ok made → made.warnings = [])) ∧
    (∀ (σ : Type) [Storage (StateM σ)] (settings : Settings) (start final : σ) (report : Report),
      ((run settings : StateM σ _).run start = (.ok report, final) → report.warnings = []) ∧
      (ParallelRun settings start (.ok report) final → report.warnings = [])) := by
  refine ⟨fun template => ?_, fun input => ?_, ?_⟩
  · exact ⟨Template.toList_parse_ne_nil template,
      fun messages hparse => Template.two_le_length_of_parse hparse,
      fun message hmessage => Template.normal_of_mem_parse hmessage,
      Template.warnings_plan template, Template.warnings_compile template⟩
  · exact ⟨fun _ => Json.warnings_plan, fun _ => Json.warnings_compile,
      fun _ => Json.warnings_compileModule⟩
  · intro σ _ settings start final report
    exact ⟨warnings_eq_nil_of_run, warnings_eq_nil_of_parallelRun⟩

/-- A template of two cases, with a bar in quotes and digits that do not fit 64 bits, and a
run over files with all kinds of outcomes. -/
theorem parse_normal_guarded :
    ∃ first second planned final,
      Template.parse "a \x7b'|'\x7d b | \x7bn\x7d \x7b99999999999999999999\x7d" =
        .plural [first, second] ∧ first.Normal ∧ second.Normal ∧
      second.items = [.placeholder (.named "n"), .text " ",
        .placeholder (.named "99999999999999999999")] ∧
      Json.plan (.object [("greeting", .string "Hello \x7bn\x7d")]) = .ok planned ∧
      planned.warnings = [] ∧
      (run mixedSettings : StateM FileTree _).run mixedFiles = (.ok mixedReport, final) ∧
      mixedReport.warnings = [] := by
  obtain ⟨htemplate, hinput, hruns⟩ := parse_normal
  obtain ⟨final, hrun⟩ := exists_run_mixed
  have hparse : Template.parse "a \x7b'|'\x7d b | \x7bn\x7d \x7b99999999999999999999\x7d" =
      .plural [⟨[.text "a ", .literal "|", .text " b"]⟩,
        ⟨[.placeholder (.named "n"), .text " ",
          .placeholder (.named "99999999999999999999")]⟩] := by
    decide +kernel
  obtain ⟨-, -, hnormal, -⟩ :=
    htemplate "a \x7b'|'\x7d b | \x7bn\x7d \x7b99999999999999999999\x7d"
  rw [hparse] at hnormal
  have hplanned : Json.plan (.object [("greeting", .string "Hello \x7bn\x7d")]) =
      .ok (treeBackend.emitValue (.object [("greeting", .string "Hello \x7bn\x7d")])) := rfl
  refine ⟨_, _, _, final, hparse, hnormal _ (by simp [Cases.toList]),
    hnormal _ (by simp [Cases.toList]), rfl, hplanned, (hinput _).1 _ hplanned, hrun, ?_⟩
  exact (hruns FileTree mixedSettings mixedFiles final mixedReport).1 hrun

end Phrasebook

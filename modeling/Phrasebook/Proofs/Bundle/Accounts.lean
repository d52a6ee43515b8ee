import Phrasebook.Files.Tree
import Phrasebook.Proofs.Bundle.Discovery
import Phrasebook.Proofs.Bundle.Report

/-!
# Accounting for files

Every file that a run finds is in its report, and is there once: its module was stored, or
other files stand in its way, or there was a fault.

Main results:

- Definition `Accounts`: how a report shares out the files that were found.
- Theorem `accounts_ofOutcomes`: a report made of outcomes accounts for all inputs.
- Theorem `run_accounts`: so does the report of every run, whatever the storage does.
-/

namespace Phrasebook.Bundle

open Text

/-! ## Reports that account for inputs -/

/-- The rivals that a report names for an input, beside the input. -/
abbrev Collided := Path × List Path

/-- A report shares out inputs: each is stored, or collides with others, or has a fault. -/
structure Accounts (directory : Option Path) (inputs : List Path) (report : Report)
    (collided : List Collided) (faulty : List (Path × FileFault)) : Prop where
  /-- Each input is in one of the three, and is there once. -/
  perm : (report.emitted.map Emitted.input ++
    (collided.map Prod.fst ++ faulty.map Prod.fst)).Perm inputs
  /-- The failures are those of the inputs that collide, and then the faults. -/
  failures : report.failures =
    collided.map (fun c => .collision c.1 (outputPath directory c.1) c.2) ++
      faulty.map (fun f => .file f.2)
  emitted_order : (report.emitted.map Emitted.input).Sublist inputs
  collided_order : (collided.map Prod.fst).Sublist inputs
  faulty_order : (faulty.map Prod.fst).Sublist inputs
  /-- Inputs that are not the same collide if they have the same output. -/
  clash : ∀ a ∈ inputs, ∀ b ∈ inputs, a.parts ≠ b.parts →
    (outputPath directory a).parts = (outputPath directory b).parts →
      a ∈ collided.map Prod.fst
  /-- An input that collides has rivals: the other inputs with its output. -/
  rivals : ∀ c ∈ collided, c.2 ≠ [] ∧ ∀ other, other ∈ c.2 ↔
    other ∈ inputs ∧ other.parts ≠ c.1.parts ∧
      (outputPath directory other).parts = (outputPath directory c.1).parts
  /-- The words for a collision name each of the rivals. -/
  named : ∀ c ∈ collided, ∀ other ∈ c.2, other.text.toList <:+:
    (Failure.collision c.1 (outputPath directory c.1) c.2).message.toList
  /-- A module is stored at the output of its input. -/
  output : ∀ e ∈ report.emitted, e.output = outputPath directory e.input
  /-- No two modules are stored at the same path. -/
  apart : report.emitted.Pairwise fun a b => a.output.parts ≠ b.output.parts
  /-- A run is successful if the module of every input was stored. -/
  success : report.isSuccess = true ↔ ∀ input ∈ inputs, input ∈ report.emitted.map Emitted.input

/-- The words for a collision name each of the rivals. -/
theorem Failure.name_mem_collision (input output : Path) {rivals : List Path} {other : Path}
    (hother : other ∈ rivals) :
    other.text.toList <:+: (Failure.collision input output rivals).message.toList := by
  have hlisted : other.text.toList <:+: (listed (rivals.map Path.text)).toList := by
    rw [listed, String.toList_intercalate]
    exact isInfix_intercalate _ (List.mem_map_of_mem (List.mem_map_of_mem hother))
  have hmessage : (Failure.collision input output rivals).message =
      (input.text ++ ": output " ++ output.text ++ " is also written by ") ++
        listed (rivals.map Path.text) := rfl
  rw [hmessage, String.toList_append]
  exact hlisted.trans (List.suffix_append _ _).isInfix

/-! ## Reports made of outcomes -/

/-- The inputs that have rivals, in order. -/
def collidedOf (directory : Option Path) (inputs : List Path) : List Collided :=
  (inputs.filter fun input => rivalsOf directory inputs input ≠ []).map fun input =>
    (input, rivalsOf directory inputs input)

/-- An input is among those that collide if it has rivals. -/
theorem mem_collidedOf {directory : Option Path} {inputs : List Path} {c : Collided} :
    c ∈ collidedOf directory inputs ↔
      c.1 ∈ inputs ∧ c.2 = rivalsOf directory inputs c.1 ∧ c.2 ≠ [] := by
  obtain ⟨input, rivals⟩ := c
  simp only [collidedOf, List.mem_map, List.mem_filter, Prod.mk.injEq, decide_eq_true_eq]
  constructor
  · rintro ⟨input, ⟨hinput, hsome⟩, rfl, rfl⟩
    exact ⟨hinput, rfl, hsome⟩
  · rintro ⟨hinput, rfl, hsome⟩
    exact ⟨input, ⟨hinput, hsome⟩, rfl, rfl⟩

/-- The inputs that collide are those with rivals. -/
theorem map_fst_collidedOf (directory : Option Path) (inputs : List Path) :
    (collidedOf directory inputs).map Prod.fst =
      inputs.filter fun input => rivalsOf directory inputs input ≠ [] := by
  simp [collidedOf, Function.comp_def]

section Outcomes

variable {directory : Option Path} {inputs : List Path} {outcomes : List Outcome}

/-- Outcomes of the inputs without rivals leave none of the inputs out. -/
theorem perm_outcomes (hinputs : (inputs.map Path.parts).Nodup)
    (htodo : outcomes.map Prod.fst = unrivalled directory inputs) :
    ((outcomes.filterMap Outcome.emitted?).map Emitted.input ++
      ((collidedOf directory inputs).map Prod.fst ++
        (outcomes.filterMap Outcome.fault?).map Prod.fst)).Perm inputs := by
  have hshared := Outcome.perm_emitted_fault outcomes
  rw [htodo, unrivalled_eq hinputs] at hshared
  have hsplit := List.filter_append_perm
    (fun input => decide (rivalsOf directory inputs input ≠ [])) inputs
  rw [map_fst_collidedOf]
  refine (List.perm_append_comm_assoc _ _ _).trans ?_
  refine (hshared.append_left _).trans ?_
  simpa using hsplit

/-- Outcomes of the inputs without rivals store no two modules at the same path. -/
theorem apart_outcomes (hinputs : (inputs.map Path.parts).Nodup)
    (htodo : outcomes.map Prod.fst = unrivalled directory inputs)
    (houtput : ∀ e ∈ outcomes.filterMap Outcome.emitted?,
      e.output = outputPath directory e.input) :
    (outcomes.filterMap Outcome.emitted?).Pairwise
      fun a b => a.output.parts ≠ b.output.parts := by
  have hdistinct := (pairwise_unrivalled hinputs).sublist
    (htodo ▸ Outcome.emitted_sublist outcomes)
  refine (List.pairwise_map.mp hdistinct).imp_of_mem fun ha hb hne => ?_
  rwa [houtput _ ha, houtput _ hb]

/-- Of inputs that are shared out in two lists, each without repeats, the second list is
empty if all of them are in the first. -/
theorem eq_nil_of_perm_append {first second : List Path} (hnodup : inputs.Nodup)
    (hperm : (first ++ second).Perm inputs) (hall : ∀ input ∈ inputs, input ∈ first) :
    second = [] := by
  have hdisjoint := List.disjoint_of_nodup_append (hperm.nodup_iff.mpr hnodup)
  refine List.eq_nil_iff_forall_not_mem.mpr fun input hinput => ?_
  have hmem := hperm.subset (List.mem_append_right first hinput)
  exact hdisjoint (hall input hmem) hinput

/-- A report made of outcomes accounts for all inputs. -/
theorem accounts_ofOutcomes (hinputs : (inputs.map Path.parts).Nodup)
    (htodo : outcomes.map Prod.fst = unrivalled directory inputs)
    (houtput : ∀ e ∈ outcomes.filterMap Outcome.emitted?,
      e.output = outputPath directory e.input) :
    Accounts directory inputs (Report.ofOutcomes directory inputs outcomes)
      (collidedOf directory inputs) (outcomes.filterMap Outcome.fault?) := by
  have hperm := perm_outcomes hinputs htodo
  have hfailures : (Report.ofOutcomes directory inputs outcomes).failures =
      (collidedOf directory inputs).map
          (fun c => .collision c.1 (outputPath directory c.1) c.2) ++
        (outcomes.filterMap Outcome.fault?).map (fun f => .file f.2) := by
    rw [failures_ofOutcomes, collisions_eq hinputs, collidedOf, List.map_map]
    rfl
  have htodoSublist : (outcomes.map Prod.fst).Sublist inputs := by
    rw [htodo]
    exact List.filter_sublist
  refine
    { perm := ?_
      failures := hfailures
      emitted_order := ?_
      collided_order := ?_
      faulty_order := (Outcome.fault_sublist outcomes).trans htodoSublist
      clash := ?_
      rivals := ?_
      named := fun c _ other hother => Failure.name_mem_collision _ _ hother
      output := ?_
      apart := ?_
      success := ?_ }
  · rwa [emitted_ofOutcomes]
  · rw [emitted_ofOutcomes]
    exact (Outcome.emitted_sublist outcomes).trans htodoSublist
  · rw [map_fst_collidedOf]
    exact List.filter_sublist
  · intro a ha b hb hne hsame
    have hrival : b ∈ rivalsOf directory inputs a :=
      mem_rivalsOf.mpr ⟨hb, Ne.symm hne, hsame.symm⟩
    rw [map_fst_collidedOf]
    simp [ha, List.ne_nil_of_mem hrival]
  · intro c hc
    obtain ⟨-, hrivals, hsome⟩ := mem_collidedOf.mp hc
    refine ⟨hsome, fun other => ?_⟩
    rw [hrivals, mem_rivalsOf]
  · rwa [emitted_ofOutcomes]
  · rw [emitted_ofOutcomes]
    exact apart_outcomes hinputs htodo houtput
  · rw [Report.isSuccess, List.isEmpty_iff, hfailures, emitted_ofOutcomes]
    constructor
    · intro hnone input hinput
      simp only [List.append_eq_nil_iff, List.map_eq_nil_iff] at hnone
      simp only [hnone, List.map_nil, List.append_nil] at hperm
      exact hperm.symm.subset hinput
    · intro hall
      have hrest := eq_nil_of_perm_append hinputs.of_map hperm hall
      simp only [List.append_eq_nil_iff, List.map_eq_nil_iff] at hrest
      simp [hrest.1, hrest.2]

end Outcomes

/-! ## Runs -/

section Runs

variable {σ : Type} [Storage (StateM σ)]

/-- An outcome is what becomes of its file from some state of the storage. -/
def Occurs (σ : Type) [Storage (StateM σ)] (directory : Option Path) (outcome : Outcome) : Prop :=
  ∃ before after : σ, (compileFile directory outcome.1 : StateM σ _).run before =
    (outcome.2, after)

/-- A module is stored at the output of its input. -/
theorem Occurs.result_eq {directory : Option Path} {input : Path} {stored : Reported Path}
    (hoccurs : Occurs σ directory (input, .ok stored)) :
    stored.result = outputPath directory input := by
  obtain ⟨before, after, hrun⟩ := hoccurs
  rw [compileFile, run_bind_eq] at hrun
  cases hmade : ((readModule input : StateM σ _).run before).1 with
  | error fault =>
    rw [hmade] at hrun
    cases hrun
  | ok made =>
    rw [hmade, run_bind_eq] at hrun
    obtain ⟨-, -, hresult⟩ := ok_of_map (congrArg Prod.fst hrun)
    rw [← hresult]
    rfl

/-- The outcomes of a run over some files are those of each file, in order. -/
theorem outcomes_of_mapM (directory : Option Path) (todo : List Path) (before : σ) :
    let outcomes := ((todo.mapM (compileLabelled directory) : StateM σ _).run before).1
    outcomes.map Prod.fst = todo ∧ ∀ outcome ∈ outcomes, Occurs σ directory outcome := by
  induction todo generalizing before with
  | nil =>
    refine ⟨rfl, fun outcome houtcome => ?_⟩
    cases houtcome
  | cons input todo ih =>
    obtain ⟨htodo, hothers⟩ :=
      ih ((compileLabelled directory input : StateM σ _).run before).2
    simp only [List.mapM_cons, run_bind_eq]
    refine ⟨congrArg (input :: ·) htodo, fun outcome houtcome => ?_⟩
    rcases List.mem_cons.mp houtcome with rfl | houtcome
    · exact ⟨before, _, rfl⟩
    · exact hothers outcome houtcome

/-- A run ends with a report if files were found, and reports on these. -/
theorem run_eq_ok_iff {settings : Settings} {report : Report} {start final : σ} :
    (run settings : StateM σ _).run start = (.ok report, final) ↔
      ∃ inputs found, inputs ≠ [] ∧
        (discover settings.patterns : StateM σ _).run start = (.ok inputs, found) ∧
        (compileAll settings.directory inputs : StateM σ _).run found = (report, final) := by
  rw [run, run_bind_eq]
  constructor
  · intro hrun
    cases hdiscover : (discover settings.patterns : StateM σ _).run start with
    | mk found? found =>
      rw [hdiscover] at hrun
      match found? with
      | .error invalid => cases hrun
      | .ok [] => cases hrun
      | .ok (first :: others) =>
        have hreport := Except.ok.inj (congrArg Prod.fst hrun)
        have hfinal := congrArg Prod.snd hrun
        exact ⟨first :: others, found, by simp, rfl, Prod.ext hreport hfinal⟩
  · rintro ⟨inputs, found, hsome, hdiscover, hcompile⟩
    obtain ⟨first, others, rfl⟩ := List.exists_cons_of_ne_nil hsome
    rw [hdiscover]
    exact congrArg (fun ended => (Except.ok ended.1, ended.2)) hcompile

/-- A run over files that are found ends with the report on these. -/
theorem exists_run {settings : Settings} {inputs : List Path} {report : Report} {start found : σ}
    (hdiscover : (discover settings.patterns : StateM σ _).run start = (.ok inputs, found))
    (hsome : inputs ≠ [])
    (hcompile : ((compileAll settings.directory inputs : StateM σ _).run found).1 = report) :
    ∃ final, (run settings : StateM σ _).run start = (.ok report, final) :=
  ⟨_, run_eq_ok_iff.mpr ⟨inputs, found, hsome, hdiscover, Prod.ext hcompile rfl⟩⟩

/-- The report of every run accounts for the files that were found, whatever the storage
does: each file is stored, or collides with others, or has a fault that compiling it had. -/
theorem run_accounts {settings : Settings} {report : Report} {start final : σ}
    (hrun : (run settings : StateM σ _).run start = (.ok report, final)) :
    ∃ inputs found collided faulty,
      (discover settings.patterns : StateM σ _).run start = (.ok inputs, found) ∧
      Path.Ascending inputs ∧
      Accounts settings.directory inputs report collided faulty ∧
      (∀ e ∈ report.emitted, ∃ stored,
        Occurs σ settings.directory (e.input, .ok stored) ∧ stored.result = e.output) ∧
      ∀ f ∈ faulty, Occurs σ settings.directory (f.1, .error f.2) := by
  obtain ⟨inputs, found, -, hdiscover, hcompile⟩ := run_eq_ok_iff.mp hrun
  have hascending := ascending_discover hdiscover
  have hinputs := hascending.nodup_parts
  obtain ⟨htodo, hoccurs⟩ :=
    outcomes_of_mapM settings.directory (unrivalled settings.directory inputs) found
  rw [compileAll_eq] at hcompile
  have hreport := congrArg Prod.fst hcompile.symm
  set outcomes := ((List.mapM (compileLabelled settings.directory)
    (unrivalled settings.directory inputs) : StateM σ _).run found).1
  replace hreport : report = Report.ofOutcomes settings.directory inputs outcomes := hreport
  have hstored : ∀ e ∈ outcomes.filterMap Outcome.emitted?, ∃ stored,
      Occurs σ settings.directory (e.input, .ok stored) ∧ stored.result = e.output := by
    intro e he
    obtain ⟨outcome, houtcome, hemitted⟩ := List.mem_filterMap.mp he
    obtain ⟨stored, rfl, hresult⟩ := Outcome.emitted?_eq_some_iff.mp hemitted
    exact ⟨stored, hoccurs _ houtcome, hresult⟩
  refine ⟨inputs, found, collidedOf settings.directory inputs,
    outcomes.filterMap Outcome.fault?, hdiscover, hascending, ?_, ?_, ?_⟩
  · rw [hreport]
    refine accounts_ofOutcomes hinputs htodo fun e he => ?_
    obtain ⟨stored, hoccurs, hresult⟩ := hstored e he
    rw [← hresult, hoccurs.result_eq]
  · rwa [hreport, emitted_ofOutcomes]
  · intro f hf
    obtain ⟨outcome, houtcome, hfault⟩ := List.mem_filterMap.mp hf
    rw [Outcome.fault?_eq_some_iff] at hfault
    exact hfault ▸ hoccurs outcome houtcome

end Runs

/-! ## A run with all kinds of outcomes -/

/-- Two files with the same name in two directories, a message, and a number. -/
def mixedFiles : FileTree :=
  ⟨[(["a"], .directory), (["b"], .directory),
    (["a", "x.json"], .file "\x7b\x7d".toUTF8), (["b", "x.json"], .file "\x7b\x7d".toUTF8),
    (["c.json"], .file "\"C\"".toUTF8), (["d.json"], .file "7".toUTF8)]⟩

/-- All of these files, with one directory for the modules. -/
def mixedSettings : Settings where
  patterns := ["a/x.json", "b/x.json", "c.json", "d.json"]
  directory := some ⟨"out"⟩

/-- These files in order. -/
def mixedInputs : List Path :=
  [⟨"a/x.json"⟩, ⟨"b/x.json"⟩, ⟨"c.json"⟩, ⟨"d.json"⟩]

/-- The report on these files. -/
def mixedReport : Report where
  emitted := [⟨⟨"c.json"⟩, ⟨"out/c.js"⟩⟩]
  failures :=
    [.collision ⟨"a/x.json"⟩ ⟨"out/x.js"⟩ [⟨"b/x.json"⟩],
      .collision ⟨"b/x.json"⟩ ⟨"out/x.js"⟩ [⟨"a/x.json"⟩],
      .file (.unfit ⟨"d.json"⟩ ⟨.number⟩)]

/-- The run over these files ends with that report. -/
theorem exists_run_mixed :
    ∃ final, (run mixedSettings : StateM FileTree _).run mixedFiles =
      (.ok mixedReport, final) := by
  have hmatching :
      ((matchingAll mixedSettings.patterns : StateM FileTree _).run mixedFiles).1 =
        .ok mixedInputs := by
    decide +kernel
  have hascending : Path.Ascending mixedInputs := by
    unfold Path.Ascending
    decide +kernel
  have hcompile : ((compileAll mixedSettings.directory mixedInputs : StateM FileTree _).run
      ((matchingAll mixedSettings.patterns : StateM FileTree _).run mixedFiles).2).1 =
        mixedReport := by
    decide +kernel
  exact exists_run (discover_of_matchingAll hmatching hascending) (by decide) hcompile

/-- Of these files one is stored, two collide, and one has a fault. -/
theorem run_accounts_mixed :
    ∃ final, (run mixedSettings : StateM FileTree _).run mixedFiles = (.ok mixedReport, final) ∧
      ∃ inputs found collided faulty,
        (discover mixedSettings.patterns : StateM FileTree _).run mixedFiles =
          (.ok inputs, found) ∧
        Path.Ascending inputs ∧
        Accounts mixedSettings.directory inputs mixedReport collided faulty ∧
        (∀ e ∈ mixedReport.emitted, ∃ stored,
          Occurs FileTree mixedSettings.directory (e.input, .ok stored) ∧
            stored.result = e.output) ∧
        ∀ f ∈ faulty, Occurs FileTree mixedSettings.directory (f.1, .error f.2) := by
  obtain ⟨final, hrun⟩ := exists_run_mixed
  exact ⟨final, hrun, run_accounts hrun⟩

end Phrasebook.Bundle

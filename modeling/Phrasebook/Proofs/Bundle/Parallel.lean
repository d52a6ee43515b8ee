import Phrasebook.Proofs.Bundle.Accounts
import Phrasebook.Proofs.Bundle.Task

/-!
# Compiling files side by side

The files of a run can be compiled side by side: each is a task of its own, and the requests
of the tasks reach the storage in any order.  On a disk this makes no difference, as no task
changes what another one relies on: an output that is an input, too, is its own output, so
the two inputs are rivals and neither is compiled.

Main results:

- Definition `ParallelRun`: a run whose tasks are answered in some order.
- Theorem `parallelRun_run`: compiling one file after the other is such a run.
- Theorem `WorksOn.respects`: the work on inputs with different outputs does not
  interfere.
- Definition `Leaves`: what a run stores, and what it leaves alone.
- Theorem `parallelRun_iff`: on a disk, all such runs come to the same report and the same
  files; a file is changed only if it is reported as stored.
-/

namespace Phrasebook.Bundle

/-! ## Runs with tasks -/

/-- The work on some inputs, one task for each. -/
def tasksOf (directory : Option Path) (inputs : List Path) :
    List (Path × Program (Except FileFault (Reported Path))) :=
  inputs.map fun input => (input, compileFile directory input)

section Runs

variable {σ : Type} [Storage (StateM σ)]

/-- Files are found, and those without rivals are compiled side by side; the report is made
of the outcomes in the order of the inputs. -/
inductive ParallelRun (settings : Settings) (start : σ) : Except RunError Report → σ → Prop where
  | invalidPattern {invalid : InvalidPattern} {found : σ}
      (hdiscover : (discover settings.patterns : StateM σ _).run start =
        (.error invalid, found)) :
      ParallelRun settings start (.error (.invalidPattern invalid)) found
  | noFiles {found : σ}
      (hdiscover : (discover settings.patterns : StateM σ _).run start = (.ok [], found)) :
      ParallelRun settings start (.error (.noFiles settings.patterns)) found
  | compiled {inputs : List Path} {outcomes : List Outcome} {found final : σ}
      (hsome : inputs ≠ [])
      (hdiscover : (discover settings.patterns : StateM σ _).run start =
        (.ok inputs, found))
      (hsteps : Relation.ReflTransGen Program.Step
        (tasksOf settings.directory (unrivalled settings.directory inputs), found)
        (Program.ended outcomes, final)) :
      ParallelRun settings start
        (.ok (Report.ofOutcomes settings.directory inputs outcomes)) final

/-- Making a module is the same as a program and as a run. -/
theorem run_readModule (input : Path) :
    (readModule input : Program _).run = (readModule input : StateM σ _) := by
  unfold readModule
  rw [Program.run_bind, Program.run_readText]
  refine congrArg (_ >>= ·) (funext fun text? => ?_)
  cases text? <;> rfl

/-- Making the directory of an output is the same as a program and as a run. -/
theorem run_prepare (output : Path) :
    (prepare output : Program _).run = (prepare output : StateM σ _) := by
  unfold prepare
  split
  · rfl
  · rw [Program.run_bind]
    exact congrArg (· >>= _) (Program.run_makeFirst _)

/-- Storing a module is the same as a program and as a run. -/
theorem run_store (output : Path) (source : String) :
    (store output source : Program _).run = (store output source : StateM σ _) := by
  unfold store
  rw [Program.run_bind, run_prepare]
  refine congrArg (_ >>= ·) (funext fun made? => ?_)
  cases made? with
  | error fault => rfl
  | ok made =>
    rw [Program.run_bind]
    exact congrArg (· >>= _) (Program.run_ask_done (.write output source.toUTF8))

/-- Compiling a file is the same as a program and as a run. -/
theorem run_compileFile (directory : Option Path) (input : Path) :
    (compileFile directory input : Program _).run =
      (compileFile directory input : StateM σ _) := by
  unfold compileFile
  rw [Program.run_bind, run_readModule]
  refine congrArg (_ >>= ·) (funext fun made? => ?_)
  cases made? with
  | error fault => rfl
  | ok made =>
    rw [Program.run_bind, run_store]
    rfl

/-- Running the tasks of some inputs one after the other is compiling the inputs so. -/
theorem mapM_runTask_tasksOf (directory : Option Path) (inputs : List Path) :
    ((tasksOf directory inputs).mapM Program.runTask : StateM σ _) =
      inputs.mapM (compileLabelled directory) := by
  rw [tasksOf, List.mapM_map]
  congr 1
  funext input
  exact congrArg ((input, ·) <$> ·) (run_compileFile directory input)

/-- Compiling one file after the other is one of the ways to compile them side by side. -/
theorem parallelRun_run (settings : Settings) (start : σ) :
    ParallelRun settings start ((run settings : StateM σ _).run start).1
      ((run settings : StateM σ _).run start).2 := by
  cases hdiscover : (discover settings.patterns : StateM σ _).run start with
  | mk found? found =>
    match found? with
    | .error invalid =>
      rw [run, run_bind_eq, hdiscover]
      exact .invalidPattern hdiscover
    | .ok [] =>
      rw [run, run_bind_eq, hdiscover]
      exact .noFiles hdiscover
    | .ok (first :: others) =>
      have hsome : first :: others ≠ [] := List.cons_ne_nil _ _
      have hsteps := Program.steps_all
        (tasksOf settings.directory (unrivalled settings.directory (first :: others))) found
      rw [mapM_runTask_tasksOf] at hsteps
      have hcompile := congrArg (·.run found)
        (compileAll_eq settings.directory (first :: others) : (_ : StateM σ Report) = _)
      rw [run_eq_ok_iff.mpr ⟨first :: others, found, hsome, hdiscover, hcompile⟩]
      exact .compiled hsome hdiscover hsteps

end Runs

/-! ## Tasks on a disk -/

section Disks

variable {guard : Guard} {start : Disk guard} {directory : Option Path}

/-- A job on a file, labelled with its path. -/
abbrev FileJob (guard : Guard) :=
  Job (Disk guard) Path (Except FileFault (Reported Path))

/-- A job is the work on an input that holds something. -/
structure WorksOn (start : Disk guard) (directory : Option Path) (input output : Place)
    (job : FileJob guard) : Prop where
  mem : input ∈ start.files
  inputPlace : job.label.place? = some input
  outputPlace : (outputPath directory job.label).place? = some output
  holds : job.holds = Agrees start input output
  works : Works start input output (outputPath directory job.label) job.change? job.result

/-- All jobs are the work on inputs. -/
def AllWork (start : Disk guard) (directory : Option Path) (jobs : List (FileJob guard)) : Prop :=
  ∀ job ∈ jobs, ∃ input output, WorksOn start directory input output job

/-- No two jobs have the same output. -/
def OutputsApart (directory : Option Path) (jobs : List (FileJob guard)) : Prop :=
  jobs.Pairwise fun a b =>
    (outputPath directory a.label).parts ≠ (outputPath directory b.label).parts

/-- The output of an input that names a place names a place, too: in the directory for
modules, or in that of the input. -/
theorem exists_place_outputPath (directory : Option Path) {path : Path} {input : Place}
    (hinput : path.place? = some input) :
    ∃ output, (outputPath directory path).place? = some output ∧
      output.above = outputAbove directory input.above := by
  rw [Path.place?_eq_some_iff] at hinput
  exact ⟨⟨_, _⟩, Path.place?_eq_some_iff.mpr (parts_outputPath directory hinput), rfl⟩

/-- The work on inputs that hold something can be summed up in jobs. -/
theorem exists_jobs (directory : Option Path) {inputs : List Path}
    (hinputs : ∀ path ∈ inputs, ∃ input ∈ start.files, path.place? = some input) :
    ∃ jobs : List (FileJob guard), jobs.map Job.task = tasksOf directory inputs ∧
      AllWork start directory jobs := by
  induction inputs with
  | nil => exact ⟨[], rfl, List.forall_mem_nil _⟩
  | cons path inputs ih =>
    rw [List.forall_mem_cons] at hinputs
    obtain ⟨jobs, htasks, hjobs⟩ := ih hinputs.2
    obtain ⟨input, hmem, hinput⟩ := hinputs.1
    obtain ⟨output, houtput, -⟩ := exists_place_outputPath directory hinput
    obtain ⟨change?, result, hdoes, hworks⟩ :=
      does_compileFile start input output hinput houtput
    refine ⟨⟨path, _, _, _, _, hdoes⟩ :: jobs, congrArg ((path, _) :: ·) htasks, ?_⟩
    refine List.forall_mem_cons.mpr ⟨⟨input, output, ?_⟩, hjobs⟩
    exact ⟨hmem, hinput, houtput, rfl, hworks⟩

namespace WorksOn

variable {input output inputA outputA inputB outputB : Place} {job a b : FileJob guard}

/-- The directory of an output is the one for modules, or that of the input. -/
theorem above_eq (hjob : WorksOn start directory input output job) :
    output.above = outputAbove directory input.above := by
  obtain ⟨found, hfound, habove⟩ := exists_place_outputPath directory hjob.inputPlace
  rw [hjob.outputPlace] at hfound
  rw [Option.some.inj hfound, habove]

/-- A job stores the module of its input, or has a fault and changes nothing. -/
theorem stored_or_failed (hjob : WorksOn start directory input output job) :
    (∃ made, Compiles start.files input made ∧ start.refusal? output = none ∧
        job.result = .ok (made.map fun _ => outputPath directory job.label) ∧
        ∀ s, job.apply s = s.insert output made.result.toUTF8) ∨
      ∃ fault, job.result = .error fault ∧ ∀ s, job.apply s = s := by
  have hworks := hjob.works
  unfold Job.apply
  generalize job.change? = change?, job.result = result at hworks ⊢
  cases hworks with
  | stored made hmade hrefusal => exact .inl ⟨made, hmade, hrefusal, rfl, fun _ => rfl⟩
  | failed fault => exact .inr ⟨fault, rfl, fun _ => rfl⟩

/-- The work on an input does not change what the work on another one relies on, if their
outputs are different. -/
theorem holds_apply (ha : WorksOn start directory inputA outputA a)
    (hb : WorksOn start directory inputB outputB b) (hne : outputB ≠ outputA) (s : Disk guard)
    (hholds : a.holds s) : a.holds (b.apply s) := by
  rw [ha.holds] at hholds ⊢
  rcases hb.stored_or_failed with ⟨made, -, hrefusal, -, happly⟩ | ⟨-, -, happly⟩
  swap
  · rwa [happly]
  obtain ⟨-, hnotBelow⟩ := Disk.of_refusal?_eq_none hrefusal
  rw [happly]
  refine hholds.insert ?_ ?_ ?_ _
  · -- An output that is the other input is the output of this one, too.
    rintro rfl
    have houtputs : (outputPath directory a.label).parts =
        (outputPath directory b.label).parts := by
      refine parts_outputPath_of_output directory (Path.place?_eq_some_iff.mp hb.inputPlace) ?_
      rw [Path.place?_eq_some_iff.mp ha.inputPlace, Path.place?_eq_some_iff.mp hb.outputPlace]
    rw [Path.place?_eq_some_iff.mp ha.outputPlace,
      Path.place?_eq_some_iff.mp hb.outputPlace] at houtputs
    exact hne (Place.parts_injective houtputs).symm
  · -- Next to an input there is nothing that the input is below and that can be stored.
    intro habove
    rw [ha.above_eq] at habove
    cases directory with
    | none => exact hnotBelow ⟨inputA, Finmap.mem_keys.mpr ha.mem, habove⟩
    | some directory =>
      have hlength := habove.length_le
      simp [Place.parts, hb.above_eq, outputAbove] at hlength
  · intro hbelow
    rw [hb.above_eq] at hbelow
    cases directory with
    | none => exact ⟨inputB, Finmap.mem_keys.mpr hb.mem, hbelow⟩
    | some directory =>
      have hlength := hbelow.length_le
      simp [Place.parts, ha.above_eq, outputAbove] at hlength

/-- The work on inputs with different outputs does not interfere. -/
theorem respects (ha : WorksOn start directory inputA outputA a)
    (hb : WorksOn start directory inputB outputB b) (hne : outputA ≠ outputB) :
    a.Respects b where
  left := ha.holds_apply hb (Ne.symm hne)
  right := hb.holds_apply ha hne
  comm s := by
    rcases ha.stored_or_failed with ⟨madeA, -, -, -, happlyA⟩ | ⟨-, -, happlyA⟩
    · rcases hb.stored_or_failed with ⟨madeB, -, -, -, happlyB⟩ | ⟨-, -, happlyB⟩
      · simp only [happlyA, happlyB, Disk.insert_comm s hne]
      · simp only [happlyB]
    · simp only [happlyA]

/-- The result of a job that stores a module is its output. -/
theorem result_eq (hjob : WorksOn start directory input output job) {stored : Reported Path}
    (hstored : job.result = .ok stored) :
    stored.result = outputPath directory job.label := by
  rcases hjob.stored_or_failed with ⟨made, -, -, hresult, -⟩ | ⟨fault, hfault, -⟩
  · obtain rfl := Except.ok.inj (hresult.symm.trans hstored)
    rfl
  · rw [hfault] at hstored
    cases hstored

/-- A job leaves all places alone but its output, and this one as well if it has a fault. -/
theorem lookup_apply_of_ne (hjob : WorksOn start directory input output job) {place : Place}
    (hplace : ∀ stored, job.result = .ok stored → output ≠ place) (s : Disk guard) :
    (job.apply s).files.lookup place = s.files.lookup place := by
  rcases hjob.stored_or_failed with ⟨made, -, -, hresult, happly⟩ | ⟨-, -, happly⟩
  · rw [happly]
    exact Finmap.lookup_insert_of_ne _ (hplace _ hresult).symm
  · rw [happly]

end WorksOn

/-! ## All jobs together -/

/-- A place that is the output of no module that was stored is left alone by all jobs. -/
theorem lookup_applyAll_of_ne {jobs : List (FileJob guard)}
    (hjobs : AllWork start directory jobs) {place : Place}
    (hplace : ∀ job ∈ jobs, ∀ stored, job.result = .ok stored →
      (outputPath directory job.label).place? ≠ some place) (s : Disk guard) :
    (Job.applyAll jobs s).files.lookup place = s.files.lookup place := by
  induction jobs generalizing s with
  | nil => rfl
  | cons job jobs ih =>
    rw [AllWork, List.forall_mem_cons] at hjobs
    rw [List.forall_mem_cons] at hplace
    obtain ⟨input, output, hjob⟩ := hjobs.1
    rw [Job.applyAll, List.foldl_cons]
    refine (ih hjobs.2 hplace.2 _).trans (hjob.lookup_apply_of_ne ?_ s)
    rintro stored hstored rfl
    exact hplace.1 stored hstored hjob.outputPlace

/-- The module of a job that came to one is at its output after all jobs, if all outputs are
different. -/
theorem exists_lookup_applyAll {jobs : List (FileJob guard)}
    (hjobs : AllWork start directory jobs) (houtputs : OutputsApart directory jobs)
    {job : FileJob guard} (hjob : job ∈ jobs) {stored : Reported Path}
    (hstored : job.result = .ok stored) (s : Disk guard) :
    ∃ input output made, job.label.place? = some input ∧
      (outputPath directory job.label).place? = some output ∧
      Compiles start.files input made ∧
      (Job.applyAll jobs s).files.lookup output = some made.result.toUTF8 := by
  induction jobs generalizing s with
  | nil => cases hjob
  | cons first jobs ih =>
    rw [OutputsApart, List.pairwise_cons] at houtputs
    obtain ⟨hfirst, hothers⟩ := List.forall_mem_cons.mp hjobs
    rcases List.mem_cons.mp hjob with rfl | hmem
    · obtain ⟨input, output, hworks⟩ := hfirst
      rcases hworks.stored_or_failed with ⟨made, hmade, -, -, happly⟩ | ⟨fault, hfault, -⟩
      · refine ⟨input, output, made, hworks.inputPlace, hworks.outputPlace, hmade, ?_⟩
        rw [Job.applyAll, List.foldl_cons, happly]
        refine (lookup_applyAll_of_ne hothers (fun other hother _ _ hsame => ?_) _).trans
          (Finmap.lookup_insert _)
        refine houtputs.1 other hother ?_
        rw [Path.place?_eq_some_iff.mp hsame, Path.place?_eq_some_iff.mp hworks.outputPlace]
      · rw [hfault] at hstored
        cases hstored
    · exact ih hothers houtputs.2 hmem _

/-- Jobs with different outputs do not interfere with each other. -/
theorem pairwise_respects {jobs : List (FileJob guard)}
    (hjobs : AllWork start directory jobs) (houtputs : OutputsApart directory jobs) :
    jobs.Pairwise Job.Respects := by
  refine houtputs.imp_of_mem fun ha hb hne => ?_
  obtain ⟨inputA, outputA, ha⟩ := hjobs _ ha
  obtain ⟨inputB, outputB, hb⟩ := hjobs _ hb
  refine ha.respects hb ?_
  rintro rfl
  refine hne ?_
  rw [Path.place?_eq_some_iff.mp ha.outputPlace, Path.place?_eq_some_iff.mp hb.outputPlace]

/-- Looking at a disk leaves it as it is. -/
instance : Observable (Disk guard) where
  kind? _ _ := rfl
  names _ _ := rfl

/-- The jobs on inputs without rivals have outputs of their own. -/
theorem outputsApart_of_unrivalled {inputs : List Path} (hinputs : (inputs.map Path.parts).Nodup)
    {jobs : List (FileJob guard)} (hlabels : jobs.map Job.label = unrivalled directory inputs) :
    OutputsApart directory jobs := by
  have houtputs : (unrivalled directory inputs).Pairwise _ := pairwise_unrivalled hinputs
  rw [← hlabels] at houtputs
  rwa [List.pairwise_map] at houtputs

/-- The end of the work on the inputs that are found does not depend on the order of the
requests: there are jobs that it comes to. -/
theorem ended_of_discover (directory : Option Path) {patterns : List String} {inputs : List Path}
    {found : Disk guard}
    (hdiscover : (discover patterns : StateM (Disk guard) _).run start = (.ok inputs, found)) :
    ∃ jobs : List (FileJob guard),
      jobs.map Job.label = unrivalled directory inputs ∧ AllWork start directory jobs ∧
      ∀ outcomes final, Relation.ReflTransGen Program.Step
        (tasksOf directory (unrivalled directory inputs), found)
        (Program.ended outcomes, final) →
          outcomes = jobs.map Job.outcome ∧ final = Job.applyAll jobs start := by
  have hquiet := discover_quiet patterns start
  rw [hdiscover] at hquiet
  obtain ⟨rfl, hfiles⟩ : found = start ∧ _ := hquiet
  have hplaces : ∀ path ∈ unrivalled directory inputs,
      ∃ input ∈ found.files, path.place? = some input := by
    intro path hpath
    have hkind := hfiles inputs rfl path (List.mem_of_mem_filter hpath)
    exact Disk.kind?_eq_file_iff.mp hkind
  obtain ⟨jobs, htasks, hjobs⟩ := exists_jobs directory hplaces
  have hlabels : jobs.map Job.label = unrivalled directory inputs := by
    have hfirst := congrArg (List.map Prod.fst) htasks
    simpa [tasksOf, Job.task, Function.comp_def] using hfirst
  have houtputs := outputsApart_of_unrivalled (ascending_discover hdiscover).nodup_parts hlabels
  refine ⟨jobs, hlabels, hjobs, fun outcomes final hsteps => ?_⟩
  rw [← htasks] at hsteps
  refine ended_of_steps (pairwise_respects hjobs houtputs) (fun job hjob => ?_) hsteps
  obtain ⟨input, output, hworks⟩ := hjobs job hjob
  rw [hworks.holds]
  exact Agrees.refl _ input output

/-- The module that a job has stored is in the report of the run, and only such modules
are. -/
theorem mem_emitted_iff {inputs : List Path} {jobs : List (FileJob guard)} {e : Emitted} :
    e ∈ (Report.ofOutcomes directory inputs (jobs.map Job.outcome)).emitted ↔
      ∃ job ∈ jobs, ∃ stored, job.result = .ok stored ∧ e = ⟨job.label, stored.result⟩ := by
  rw [emitted_ofOutcomes, List.mem_filterMap]
  constructor
  · rintro ⟨outcome, houtcome, hemitted⟩
    obtain ⟨job, hjob, rfl⟩ := List.mem_map.mp houtcome
    obtain ⟨stored, houtcome, hresult⟩ := Outcome.emitted?_eq_some_iff.mp hemitted
    obtain ⟨hlabel, hstored⟩ := Prod.mk.inj houtcome
    refine ⟨job, hjob, stored, hstored, ?_⟩
    rw [hlabel, hresult]
  · rintro ⟨job, hjob, stored, hstored, rfl⟩
    refine ⟨job.outcome, List.mem_map_of_mem hjob, ?_⟩
    exact Outcome.emitted?_eq_some_iff.mpr ⟨stored, congrArg (job.label, ·) hstored, rfl⟩

/-- What a run over some inputs leaves behind. -/
structure Leaves (directory : Option Path) (inputs : List Path) (start final : FileMap)
    (report : Report) : Prop where
  /-- The modules in the report are stored, each made of what its input held before. -/
  stored : ∀ e ∈ report.emitted, ∃ input output made, e.input.place? = some input ∧
    e.output.place? = some output ∧ Compiles start input made ∧
    final.lookup output = some made.result.toUTF8
  /-- Nothing else is changed. -/
  untouched : ∀ place, (∀ e ∈ report.emitted, e.output.place? ≠ some place) →
    final.lookup place = start.lookup place
  /-- In particular, what is at the output of an input without a module stays. -/
  spared : ∀ input ∈ inputs, input ∉ report.emitted.map Emitted.input →
    ∀ place, (outputPath directory input).place? = some place →
      final.lookup place = start.lookup place

/-- The output of an input without a module is not the output of a module in the report. -/
theorem output_ne_of_spared {inputs : List Path} (hinputs : (inputs.map Path.parts).Nodup)
    {emitted : List Emitted} (hemitted : ∀ e ∈ emitted,
      e.input ∈ unrivalled directory inputs ∧ e.output = outputPath directory e.input)
    {input : Path} (hinput : input ∈ inputs) (hspared : input ∉ emitted.map Emitted.input)
    {place : Place} (hplace : (outputPath directory input).place? = some place) :
    ∀ e ∈ emitted, e.output.place? ≠ some place := by
  intro e he hsame
  obtain ⟨hown, houtput⟩ := hemitted e he
  have hne : e.input.parts ≠ input.parts := by
    intro hparts
    have heq := List.inj_on_of_nodup_map hinputs (List.mem_of_mem_filter hown) hinput hparts
    exact hspared (heq ▸ List.mem_map_of_mem he)
  rw [houtput, Path.place?_eq_some_iff] at hsame
  rw [Path.place?_eq_some_iff] at hplace
  exact outputPath_ne_of_unrivalled hinputs hown hinput hne (hsame.trans hplace.symm)

/-- The jobs on inputs without rivals leave the modules in their report, and nothing else. -/
theorem leaves_applyAll {inputs : List Path} (hinputs : (inputs.map Path.parts).Nodup)
    {jobs : List (FileJob guard)} (hlabels : jobs.map Job.label = unrivalled directory inputs)
    (hjobs : AllWork start directory jobs) :
    Leaves directory inputs start.files (Job.applyAll jobs start).files
      (Report.ofOutcomes directory inputs (jobs.map Job.outcome)) := by
  have houtputs := outputsApart_of_unrivalled hinputs hlabels
  have huntouched : ∀ place, (∀ e ∈ (Report.ofOutcomes directory inputs
      (jobs.map Job.outcome)).emitted, e.output.place? ≠ some place) →
        (Job.applyAll jobs start).files.lookup place = start.files.lookup place := by
    intro place hplace
    refine lookup_applyAll_of_ne hjobs (fun job hjob stored hstored => ?_) start
    obtain ⟨input, output, hworks⟩ := hjobs job hjob
    rw [← hworks.result_eq hstored]
    exact hplace ⟨job.label, stored.result⟩
      (mem_emitted_iff.mpr ⟨job, hjob, stored, hstored, rfl⟩)
  refine ⟨fun e he => ?_, huntouched, fun input hinput hspared place hplace => ?_⟩
  · obtain ⟨job, hjob, stored, hstored, rfl⟩ := mem_emitted_iff.mp he
    obtain ⟨ownInput, ownOutput, hworks⟩ := hjobs job hjob
    obtain ⟨input, output, made, hinput, houtput, hmade, hlookup⟩ :=
      exists_lookup_applyAll hjobs houtputs hjob hstored start
    have hresult := hworks.result_eq hstored
    exact ⟨input, output, made, hinput, hresult ▸ houtput, hmade, hlookup⟩
  · refine huntouched place (output_ne_of_spared hinputs (fun e he => ?_) hinput hspared hplace)
    obtain ⟨job, hjob, stored, hstored, rfl⟩ := mem_emitted_iff.mp he
    obtain ⟨ownInput, ownOutput, hworks⟩ := hjobs job hjob
    exact ⟨hlabels ▸ List.mem_map_of_mem hjob, hworks.result_eq hstored⟩

/-- Every way to compile files of a disk side by side comes to the end of compiling one
after the other. -/
theorem run_of_parallelRun {settings : Settings} {outcome : Except RunError Report}
    {final : Disk guard} (hrun : ParallelRun settings start outcome final) :
    (run settings : StateM (Disk guard) _).run start = (outcome, final) := by
  cases hrun with
  | invalidPattern hdiscover =>
    rw [run, run_bind_eq, hdiscover]
    rfl
  | noFiles hdiscover =>
    rw [run, run_bind_eq, hdiscover]
    rfl
  | compiled hsome hdiscover hsteps =>
    rename_i inputs outcomes found
    obtain ⟨jobs, -, -, hended⟩ := ended_of_discover settings.directory hdiscover
    have hall := Program.steps_all
      (tasksOf settings.directory (unrivalled settings.directory inputs)) found
    rw [mapM_runTask_tasksOf] at hall
    obtain ⟨houtcomes, hfinal⟩ := hended _ _ hall
    obtain ⟨rfl, rfl⟩ := hended _ _ hsteps
    have hcompile : (compileAll settings.directory inputs : StateM (Disk guard) _).run found =
        (Report.ofOutcomes settings.directory inputs (jobs.map Job.outcome),
          Job.applyAll jobs start) := by
      rw [compileAll_eq, ← houtcomes, ← hfinal]
      rfl
    exact run_eq_ok_iff.mpr ⟨inputs, found, hsome, hdiscover, hcompile⟩

/-- A run over files of a disk leaves the modules that it reports, and nothing else. -/
theorem leaves_of_parallelRun {settings : Settings} {report : Report} {final : Disk guard}
    (hrun : ParallelRun settings start (.ok report) final) :
    ∃ inputs, (discover settings.patterns : StateM (Disk guard) _).run start =
        (.ok inputs, start) ∧
      Leaves settings.directory inputs start.files final.files report := by
  cases hrun with
  | compiled hsome hdiscover hsteps =>
  rename_i inputs outcomes found
  obtain ⟨jobs, hlabels, hjobs, hended⟩ := ended_of_discover settings.directory hdiscover
  obtain ⟨houtcomes, hfinal⟩ := hended _ _ hsteps
  have hquiet := (discover_quiet settings.patterns start).1
  rw [hdiscover] at hquiet
  obtain rfl : found = start := hquiet
  refine ⟨inputs, hdiscover, ?_⟩
  rw [houtcomes, hfinal]
  exact leaves_applyAll (ascending_discover hdiscover).nodup_parts hlabels hjobs

/-- A run that ends with an error leaves the disk as it was. -/
theorem eq_of_parallelRun_error {settings : Settings} {error : RunError} {final : Disk guard}
    (hrun : ParallelRun settings start (.error error) final) : final = start := by
  cases hrun with
  | invalidPattern hdiscover =>
    have hquiet := (discover_quiet settings.patterns start).1
    rwa [hdiscover] at hquiet
  | noFiles hdiscover =>
    have hquiet := (discover_quiet settings.patterns start).1
    rwa [hdiscover] at hquiet

/-- On every disk and for all settings, compiling files side by side ends as compiling one
after the other does, in whatever order the requests of the tasks are answered.  If this end
is an error nothing is changed; if it is a report, the modules that it lists are stored, each
made of what its input held before, and nothing else is changed. -/
theorem parallelRun_iff (settings : Settings) (start : Disk guard) :
    ∃ outcome final,
      (run settings : StateM (Disk guard) _).run start = (outcome, final) ∧
      (∀ otherOutcome otherFinal, ParallelRun settings start otherOutcome otherFinal ↔
        otherOutcome = outcome ∧ otherFinal = final) ∧
      (∀ error, outcome = .error error → final = start) ∧
      ∀ report, outcome = .ok report →
        ∃ inputs, (discover settings.patterns : StateM (Disk guard) _).run start =
            (.ok inputs, start) ∧
          Leaves settings.directory inputs start.files final.files report := by
  have hsequential := parallelRun_run settings start
  cases hended : (run settings : StateM (Disk guard) _).run start with
  | mk outcome final =>
    rw [hended] at hsequential
    refine ⟨outcome, final, rfl, fun otherOutcome otherFinal => ⟨fun hother => ?_, ?_⟩, ?_, ?_⟩
    · have hsame := hended.symm.trans (run_of_parallelRun hother)
      cases hsame
      exact ⟨rfl, rfl⟩
    · rintro ⟨rfl, rfl⟩
      exact hsequential
    · rintro error rfl
      exact eq_of_parallelRun_error hsequential
    · rintro report rfl
      exact leaves_of_parallelRun hsequential

end Disks

end Phrasebook.Bundle

import Mathlib.Data.List.Pairwise
import Phrasebook.Proofs.Files.Program

/-!
# Tasks that do not interfere

A task that reads first and changes the storage at most once, with its last request, can be
summed up: what it relies on, what it changes and what it comes to.  If no task changes
what another one relies on, tasks that are run side by side, in any order of their requests,
come to the same results and leave the same storage behind.

Main results:

- Definition `Program.Does`: what a program does as long as what it relies on holds.
- Theorem `Promised.step`: a step of a task keeps what all tasks will come to.
- Theorem `ended_of_steps`: so the end of a run is the same for every order of steps.
-/

namespace Phrasebook

variable {σ : Type} [Storage (StateM σ)] {ι α β : Type}

namespace Program

/-- While `holds` is true of the storage, a program comes to one result, and the change that
it makes, if it makes one, is its last request. -/
inductive Does (holds : σ → Prop) : Program α → Option (σ → σ) → α → Prop where
  | done (result : α) : Does holds (.done result) none result
  | look {request : Request} {next : request.Answer → Program α} {answer : request.Answer}
      {change? : Option (σ → σ)} {result : α}
      (hanswer : ∀ s, holds s → (request.perform : StateM σ _).run s = (answer, s))
      (hnext : Does holds (next answer) change? result) :
      Does holds (.ask request next) change? result
  | change {request : Request} {next : request.Answer → Program α} {answer : request.Answer}
      {change : σ → σ} {result : α}
      (hanswer : ∀ s, holds s → (request.perform : StateM σ _).run s = (answer, change s))
      (hlast : next answer = .done result) :
      Does holds (.ask request next) (some change) result

/-- A program that changes nothing can be followed by another one. -/
theorem Does.bind {holds : σ → Prop} {first : Program α} {f : α → Program β} {between : α}
    {change? : Option (σ → σ)} {result : β} (hfirst : Does holds first none between)
    (hnext : Does holds (f between) change? result) :
    Does holds (first >>= f) change? result := by
  generalize hnone : (none : Option (σ → σ)) = nothing at hfirst
  induction hfirst with
  | done between => exact hnext
  | look hanswer _ ih => exact .look hanswer (ih hnext hnone)
  | change => cases hnone

/-- Doing something with the result of a program changes nothing more. -/
theorem Does.map {holds : σ → Prop} {program : Program α} {change? : Option (σ → σ)}
    {result : α} (hprogram : Does holds program change? result) (f : α → β) :
    Does holds (f <$> program) change? (f result) := by
  induction hprogram with
  | done result => exact .done _
  | look hanswer _ ih => exact .look hanswer ih
  | change hanswer hlast => exact .change hanswer (by rw [hlast]; rfl)

end Program

/-! ## Jobs -/

/-- A task that is summed up. -/
structure Job (σ ι α : Type) [Storage (StateM σ)] where
  label : ι
  program : Program α
  holds : σ → Prop
  change? : Option (σ → σ)
  result : α
  does : program.Does holds change? result

namespace Job

/-- The task of a job. -/
def task (job : Job σ ι α) : ι × Program α :=
  (job.label, job.program)

/-- What a job comes to. -/
def outcome (job : Job σ ι α) : ι × α :=
  (job.label, job.result)

/-- Make the change of a job, if it makes one. -/
def apply (job : Job σ ι α) (s : σ) : σ :=
  match job.change? with
  | none => s
  | some change => change s

/-- Neither of two jobs changes what the other one relies on, and their changes can be made
in any order. -/
structure Respects (a b : Job σ ι α) : Prop where
  left : ∀ s, a.holds s → a.holds (b.apply s)
  right : ∀ s, b.holds s → b.holds (a.apply s)
  comm : ∀ s, a.apply (b.apply s) = b.apply (a.apply s)

/-- Jobs respect each other. -/
theorem Respects.symm {a b : Job σ ι α} (hjobs : Respects a b) : Respects b a where
  left := hjobs.right
  right := hjobs.left
  comm s := (hjobs.comm s).symm

/-- A job that has come to its result and changes nothing more. -/
def finished (label : ι) (result : α) : Job σ ι α where
  label := label
  program := .done result
  holds _ := True
  change? := none
  result := result
  does := .done result

/-- A job that is finished and one that respects it. -/
theorem finished_respects (label : ι) (result : α) (job : Job σ ι α) :
    Respects (finished label result) job where
  left _ _ := trivial
  right _ hholds := hholds
  comm _ := rfl

/-- Make the changes of several jobs. -/
def applyAll (jobs : List (Job σ ι α)) (start : σ) : σ :=
  jobs.foldl (fun s job => job.apply s) start

/-- A job that respects those before it may make its change first. -/
theorem applyAll_middle {before after : List (Job σ ι α)} {job : Job σ ι α}
    (hjob : ∀ other ∈ before, Respects job other) (start : σ) :
    applyAll (before ++ job :: after) start = applyAll (before ++ after) (job.apply start) := by
  induction before generalizing start with
  | nil => rfl
  | cons first before ih =>
    rw [List.forall_mem_cons] at hjob
    have hcomm := hjob.1.comm start
    simp only [applyAll, List.cons_append, List.foldl_cons] at ih ⊢
    rw [ih hjob.2, hcomm]

end Job

/-! ## Steps and runs -/

/-- What is left of some tasks will come to these outcomes, and leave the storage in this
state. -/
def Promised (outcomes : List (ι × α)) (final : σ)
    (state : List (ι × Program α) × σ) : Prop :=
  ∃ jobs : List (Job σ ι α), state.1 = jobs.map Job.task ∧ jobs.Pairwise Job.Respects ∧
    (∀ job ∈ jobs, job.holds state.2) ∧ jobs.map Job.outcome = outcomes ∧
    Job.applyAll jobs state.2 = final

/-- A job may be replaced by one with the same outcome that leaves the storage in the same
state, and respects what the job respects. -/
theorem promised_replace {before behind : List (Job σ ι α)} {job : Job σ ι α}
    {start changed : σ} (new : Job σ ι α) (hjobs : (before ++ job :: behind).Pairwise Job.Respects)
    (hrespects : ∀ other, job.Respects other → new.Respects other)
    (hown : new.holds changed) (hothers : ∀ other ∈ before ++ behind, other.holds changed)
    (houtcome : new.outcome = job.outcome) (happly : new.apply changed = job.apply start) :
    Promised ((before ++ job :: behind).map Job.outcome)
      (Job.applyAll (before ++ job :: behind) start)
      (before.map Job.task ++ new.task :: behind.map Job.task, changed) := by
  have hmiddle := List.pairwise_cons.mp
    ((List.pairwise_middle Job.Respects.symm).mp hjobs)
  have hnew : ∀ other ∈ before ++ behind, new.Respects other :=
    fun other hother => hrespects other (hmiddle.1 other hother)
  refine ⟨before ++ new :: behind, by simp, ?_, ?_, ?_, ?_⟩
  · exact (List.pairwise_middle Job.Respects.symm).mpr
      (List.pairwise_cons.mpr ⟨hnew, hmiddle.2⟩)
  · intro other hother
    rcases List.mem_cons.mp (List.perm_middle.subset hother) with rfl | hother
    · exact hown
    · exact hothers other hother
  · simp [houtcome]
  · have hbefore : ∀ other ∈ before, other ∈ before ++ behind :=
      fun other hother => List.mem_append_left _ hother
    rw [Job.applyAll_middle fun other hother => hnew other (hbefore other hother),
      Job.applyAll_middle fun other hother => hmiddle.1 other (hbefore other hother), happly]

/-- A step of a task keeps what all tasks will come to. -/
theorem Promised.step {outcomes : List (ι × α)} {final : σ}
    {state after : List (ι × Program α) × σ} (hpromised : Promised outcomes final state)
    (hstep : Program.Step state after) : Promised outcomes final after := by
  obtain ⟨jobs, htasks, hjobs, hholds, rfl, rfl⟩ := hpromised
  cases hstep with
  | ask before behind label request next start =>
  obtain ⟨jobsBefore, rest, rfl, rfl, hrest⟩ := List.map_eq_append_iff.mp htasks.symm
  obtain ⟨job, jobsBehind, rfl, hjob, rfl⟩ := List.map_eq_cons_iff.mp hrest
  have hown : job.holds start := hholds job (by simp)
  have hothers : ∀ other ∈ jobsBefore ++ jobsBehind, other.holds start := by
    intro other hother
    exact hholds other (List.perm_middle.symm.subset (List.mem_cons_of_mem _ hother))
  obtain ⟨own, program, holds, change?, result, hdoes⟩ := job
  obtain ⟨rfl, rfl⟩ := Prod.mk.inj hjob
  cases hdoes with
  | look hanswer hnext =>
    -- The job goes on with the answer and relies on what it relied on before.
    rw [hanswer start hown]
    exact promised_replace ⟨own, _, holds, change?, result, hnext⟩ hjobs
      (fun other hother => ⟨hother.left, hother.right, hother.comm⟩) hown hothers rfl rfl
  | change hanswer hlast =>
    -- The job has made its change, which the others do not mind.
    have hmiddle := List.pairwise_cons.mp
      ((List.pairwise_middle Job.Respects.symm).mp hjobs)
    rw [hanswer start hown, hlast]
    exact promised_replace (.finished own result) hjobs
      (fun other _ => Job.finished_respects own result other) trivial
      (fun other hother => (hmiddle.1 other hother).right start (hothers other hother)) rfl rfl

/-- Steps of tasks keep what all tasks will come to. -/
theorem Promised.steps {outcomes : List (ι × α)} {final : σ}
    {state after : List (ι × Program α) × σ} (hpromised : Promised outcomes final state)
    (hsteps : Relation.ReflTransGen Program.Step state after) :
    Promised outcomes final after := by
  induction hsteps with
  | refl => exact hpromised
  | tail _ hstep ih => exact ih.step hstep

/-- A job whose task has ended has come to its result and makes no change. -/
theorem Job.of_task_eq_done {job : Job σ ι α} {outcome : ι × α}
    (hended : job.task = (outcome.1, .done outcome.2)) :
    job.outcome = outcome ∧ ∀ s, job.apply s = s := by
  obtain ⟨label, program, holds, change?, result, hdoes⟩ := job
  obtain ⟨rfl, rfl⟩ := Prod.mk.inj hended
  cases hdoes
  exact ⟨rfl, fun _ => rfl⟩

/-- Jobs whose tasks have all ended have come to their results and make no changes. -/
theorem Job.of_map_task_eq_ended {jobs : List (Job σ ι α)} {results : List (ι × α)}
    (hended : jobs.map Job.task = Program.ended results) :
    jobs.map Job.outcome = results ∧ ∀ s, Job.applyAll jobs s = s := by
  induction jobs generalizing results with
  | nil =>
    have hnone : results = [] := List.map_eq_nil_iff.mp hended.symm
    exact ⟨hnone.symm, fun _ => rfl⟩
  | cons job jobs ih =>
    obtain ⟨result, results, rfl, hown, hothers⟩ := List.map_eq_cons_iff.mp hended.symm
    obtain ⟨houtcome, happly⟩ := Job.of_task_eq_done hown.symm
    obtain ⟨houtcomes, happlyAll⟩ := ih hothers.symm
    refine ⟨by rw [List.map_cons, houtcome, houtcomes], fun s => ?_⟩
    rw [Job.applyAll, List.foldl_cons, happly]
    exact happlyAll s

/-- When all tasks have ended, they have come to what was promised. -/
theorem Promised.of_ended {outcomes results : List (ι × α)} {final s : σ}
    (hpromised : Promised outcomes final (Program.ended results, s)) :
    results = outcomes ∧ s = final := by
  obtain ⟨jobs, htasks, -, -, rfl, rfl⟩ := hpromised
  obtain ⟨houtcomes, happly⟩ := Job.of_map_task_eq_ended htasks.symm
  exact ⟨houtcomes.symm, (happly s).symm⟩

/-- Jobs that respect each other come to their results and make all their changes, whatever
the order of their steps. -/
theorem ended_of_steps {jobs : List (Job σ ι α)} {start final : σ} {results : List (ι × α)}
    (hjobs : jobs.Pairwise Job.Respects) (hholds : ∀ job ∈ jobs, job.holds start)
    (hsteps : Relation.ReflTransGen Program.Step (jobs.map Job.task, start)
      (Program.ended results, final)) :
    results = jobs.map Job.outcome ∧ final = Job.applyAll jobs start :=
  (Promised.steps ⟨jobs, rfl, hjobs, hholds, rfl, rfl⟩ hsteps).of_ended

end Phrasebook

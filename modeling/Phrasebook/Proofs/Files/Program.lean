import Mathlib.Logic.Relation
import Phrasebook.Files.Storage

/-!
# Programs and tasks

What is done with a storage is written down here as a program: a request, and how to go on
with each answer.  Several programs can then be run side by side on one storage, a request
of one and a request of another in any order.

Main results:

- Definition `Program`: requests to a storage, each one depending on the answers so far.
- Definition `Program.Step`: one request of one of several tasks is answered.
- Theorem `Program.run_bind`: a program that goes on with another one runs both.
- Theorem `Program.returns_of_steps`: tasks that are run side by side come to results of
  the kinds that they come to alone.
- Theorem `Program.steps_all`: tasks can be run one after the other.
-/

namespace Phrasebook

/-- A request to a storage. -/
inductive Request where
  | kind? (path : Path)
  | names (path : Path)
  | read (path : Path)
  | makeDirectory (path : Path)
  | write (path : Path) (content : ByteArray)

namespace Request

/-- What a storage answers to a request. -/
abbrev Answer : Request → Type
  | .kind? _ => Option FileKind
  | .names _ => Except StorageError (List String)
  | .read _ => Except StorageError ByteArray
  | .makeDirectory _ => Except StorageError Unit
  | .write _ _ => Except StorageError Unit

/-- Put a request to a storage. -/
def perform {m : Type → Type} [Storage m] : (request : Request) → m request.Answer
  | .kind? path => Storage.kind? path
  | .names path => Storage.names path
  | .read path => Storage.read path
  | .makeDirectory path => Storage.makeDirectory path
  | .write path content => Storage.write path content

end Request

/-- A program that puts one request after the other to a storage. -/
inductive Program (α : Type) where
  | done (result : α)
  | ask (request : Request) (next : request.Answer → Program α)

namespace Program

variable {α β : Type}

/-- Go on with another program. -/
def bind : Program α → (α → Program β) → Program β
  | .done result, f => f result
  | .ask request next, f => .ask request fun answer => (next answer).bind f

instance : Monad Program where
  pure := .done
  bind := bind

@[simp]
theorem pure_eq (result : α) : (pure result : Program α) = .done result :=
  rfl

@[simp]
theorem done_bind (result : α) (f : α → Program β) : Program.done result >>= f = f result :=
  rfl

@[simp]
theorem ask_bind (request : Request) (next : request.Answer → Program α)
    (f : α → Program β) :
    Program.ask request next >>= f = .ask request fun answer => next answer >>= f :=
  rfl

instance : Storage Program where
  kind? path := .ask (.kind? path) .done
  names path := .ask (.names path) .done
  read path := .ask (.read path) .done
  makeDirectory path := .ask (.makeDirectory path) .done
  write path content := .ask (.write path content) .done

/-! ## Results of programs -/

/-- A program that comes to results of a kind only, whatever the answers are. -/
inductive Returns (kind : α → Prop) : Program α → Prop
  | done {result : α} (hresult : kind result) : Returns kind (.done result)
  | ask {request : Request} {next : request.Answer → Program α}
      (hnext : ∀ answer, Returns kind (next answer)) : Returns kind (.ask request next)

/-- Every program comes to some result. -/
theorem returns_any (program : Program α) : program.Returns fun _ => True := by
  induction program with
  | done result => exact .done trivial
  | ask request next ih => exact .ask ih

/-- A program that goes on with another one comes to the results of that one. -/
theorem Returns.bind {program : Program α} {kind : α → Prop} {other : β → Prop}
    {f : α → Program β} (hprogram : program.Returns kind)
    (hf : ∀ result, kind result → (f result).Returns other) : (program >>= f).Returns other := by
  induction hprogram with
  | done hresult => exact hf _ hresult
  | ask _ ih => exact .ask ih

section Runs

variable {σ : Type} [Storage (StateM σ)]

/-! ## Running one program -/

/-- Run a program on a storage. -/
def run : Program α → StateM σ α
  | .done result => pure result
  | .ask request next => request.perform >>= fun answer => (next answer).run

/-- A program that goes on with another one runs both. -/
theorem run_bind (program : Program α) (f : α → Program β) :
    (program >>= f).run = (program.run >>= fun result => (f result).run : StateM σ β) := by
  induction program with
  | done result => rfl
  | ask request next ih => exact congrArg (request.perform >>= ·) (funext ih)

/-- A program of one request is that request. -/
theorem run_ask_done (request : Request) :
    (Program.ask request .done).run = (request.perform : StateM σ _) :=
  bind_pure _

/-- Reading the text of a file is the same as a program and as a run. -/
theorem run_readText (path : Path) :
    (Storage.readText path : Program _).run = (Storage.readText path : StateM σ _) := by
  unfold Storage.readText
  rw [run_bind]
  refine congrArg₂ (· >>= ·) (run_ask_done (.read path)) (funext fun bytes? => ?_)
  cases bytes? with
  | error refusal => rfl
  | ok bytes => cases htext : String.fromUTF8? bytes <;> simp [htext, run]

/-- Looking for a directory is the same as a program and as a run. -/
theorem run_isDirectory (path : Path) :
    (Storage.isDirectory path : Program _).run = (Storage.isDirectory path : StateM σ _) := by
  unfold Storage.isDirectory
  rw [run_bind]
  exact congrArg (· >>= _) (run_ask_done (.kind? path))

/-- Accepting an outcome is the same as a program and as a run. -/
theorem run_settle (path : Path) (outcome : Except StorageError Unit) :
    (Storage.settle path outcome : Program _).run =
      (Storage.settle path outcome : StateM σ _) := by
  unfold Storage.settle
  cases outcome with
  | ok made => rfl
  | error refusal =>
    simp only [run_bind, run_isDirectory]
    refine congrArg (_ >>= ·) (funext fun found => ?_)
    cases found <;> rfl

/-- Making directories is the same as a program and as a run. -/
theorem run_makeFirst (paths : List Path) :
    (Storage.makeFirst paths : Program _).run = (Storage.makeFirst paths : StateM σ _) := by
  induction paths with
  | nil => rfl
  | cons path above ih =>
    unfold Storage.makeFirst
    split
    · rfl
    · have hmake : (Storage.makeDirectory path : Program _).run =
          (Storage.makeDirectory path : StateM σ _) :=
        run_ask_done (.makeDirectory path)
      rw [run_bind, hmake]
      refine congrArg (_ >>= ·) (funext fun outcome => ?_)
      split
      · rw [run_bind, ih]
        refine congrArg (_ >>= ·) (funext fun aboveOutcome => ?_)
        cases aboveOutcome with
        | error refusal => rfl
        | ok made =>
          rw [run_bind, hmake]
          exact congrArg (_ >>= ·) (funext fun again => run_settle path again)
      · exact run_settle path _

/-! ## Running several tasks -/

variable {ι : Type}

/-- One request of one of several tasks is answered; the other tasks wait. -/
inductive Step : List (ι × Program α) × σ → List (ι × Program α) × σ → Prop where
  | ask (before after : List (ι × Program α)) (label : ι) (request : Request)
      (next : request.Answer → Program α) (start : σ) :
      Step (before ++ (label, .ask request next) :: after, start)
        (before ++ (label, next ((request.perform : StateM σ _).run start).1) :: after,
          ((request.perform : StateM σ _).run start).2)

/-- Tasks that have come to their results. -/
def ended (outcomes : List (ι × α)) : List (ι × Program α) :=
  outcomes.map fun outcome => (outcome.1, .done outcome.2)

/-- Run a task, and say which one it was. -/
def runTask (task : ι × Program α) : StateM σ (ι × α) :=
  (task.1, ·) <$> task.2.run

/-- An answered request leaves each task to come to its kind of results. -/
theorem Step.returns {kind : ι → α → Prop} {tasks others : List (ι × Program α)} {start next : σ}
    (hstep : Step (tasks, start) (others, next))
    (htasks : ∀ task ∈ tasks, task.2.Returns (kind task.1)) :
    ∀ task ∈ others, task.2.Returns (kind task.1) := by
  cases hstep with
  | ask before after label request go =>
    rw [List.forall_mem_append, List.forall_mem_cons] at htasks ⊢
    refine ⟨htasks.1, ?_, htasks.2.2⟩
    cases htasks.2.1 with
    | ask hnext => exact hnext _

/-- Tasks that are run side by side come to their kinds of results. -/
theorem returns_of_steps (kind : ι → α → Prop) {tasks : List (ι × Program α)}
    {outcomes : List (ι × α)} {start final : σ}
    (hsteps : Relation.ReflTransGen Step (tasks, start) (ended outcomes, final))
    (htasks : ∀ task ∈ tasks, task.2.Returns (kind task.1)) :
    ∀ outcome ∈ outcomes, kind outcome.1 outcome.2 := by
  have hall : ∀ state : List (ι × Program α) × σ,
      Relation.ReflTransGen Step (tasks, start) state →
        ∀ task ∈ state.1, task.2.Returns (kind task.1) := by
    intro state hstate
    induction hstate with
    | refl => exact htasks
    | tail _ hstep ih => exact hstep.returns ih
  intro outcome houtcome
  cases hall _ hsteps (outcome.1, .done outcome.2) (List.mem_map_of_mem houtcome) with
  | done hresult => exact hresult

/-- A task can be run to its end while the others wait. -/
theorem steps_alone (before after : List (ι × Program α)) (label : ι) (program : Program α)
    (start : σ) :
    Relation.ReflTransGen Step (before ++ (label, program) :: after, start)
      (before ++ (label, .done (program.run.run start).1) :: after,
        (program.run.run start).2) := by
  induction program generalizing start with
  | done result => exact .refl
  | ask request next ih =>
    exact .head (.ask before after label request next start) (ih _ _)

/-- Behind tasks that have ended, the others can be run one after the other. -/
theorem steps_behind (before : List (ι × α)) (tasks : List (ι × Program α)) (start : σ) :
    Relation.ReflTransGen Step (ended before ++ tasks, start)
      (ended (before ++ ((tasks.mapM runTask : StateM σ _).run start).1),
        ((tasks.mapM runTask : StateM σ _).run start).2) := by
  induction tasks generalizing before start with
  | nil =>
    rw [List.mapM_nil, List.append_nil]
    exact (List.append_nil before).symm ▸ .refl
  | cons task tasks ih =>
    obtain ⟨label, program⟩ := task
    have hfirst := steps_alone (ended before) tasks label program start
    have hothers := ih (before ++ [(label, (program.run.run start).1)]) (program.run.run start).2
    have hended : ended (before ++ [(label, (program.run.run start).1)]) ++ tasks =
        ended before ++ (label, .done (program.run.run start).1) :: tasks := by
      simp [ended]
    rw [hended, List.append_assoc] at hothers
    rw [List.mapM_cons]
    exact hfirst.trans hothers

/-- Tasks can be run one after the other. -/
theorem steps_all (tasks : List (ι × Program α)) (start : σ) :
    Relation.ReflTransGen Step (tasks, start)
      (ended ((tasks.mapM runTask : StateM σ _).run start).1,
        ((tasks.mapM runTask : StateM σ _).run start).2) :=
  steps_behind [] tasks start

end Runs

end Program

end Phrasebook

import Phrasebook.Proofs.Compile.Backends
import Phrasebook.Proofs.Script.Sources

/-!
# Compiled sources read back

What is compiled into source text is read back as what is made of the same input in
memory, for inputs of any nesting and for messages that no template stands for.

Main results:

- Theorem `compile_parity`: a template or an object is compiled into a source and
  into a module that are read back as its tree, and every other input is refused in
  the same way by both backends.
- Theorem `message_roundtrip`: the source of any message or plural group is read
  back as its phrases, and both backends warn about each link once.
-/

namespace Phrasebook

open Script

/-! ## Inputs -/

/-- A template or an object becomes something with every backend. -/
theorem emitInput_of_fit {μ τ : Type} (backend : Backend μ τ) {input : Json}
    (hfit : input.kind = .string ∨ input.kind = .object) :
    backend.emitInput input = .ok (backend.emitValue input) := by
  unfold Backend.emitInput
  rcases hfit with hkind | hkind <;> rw [hkind]

/-- Any other input is refused by every backend, with its kind. -/
theorem emitInput_of_unfit {μ τ : Type} (backend : Backend μ τ) {input : Json}
    (hunfit : ¬(input.kind = .string ∨ input.kind = .object)) :
    backend.emitInput input = .error ⟨input.kind⟩ := by
  rw [not_or] at hunfit
  unfold Backend.emitInput
  split
  · rename_i hkind
    exact absurd hkind hunfit.1
  · rename_i hkind
    exact absurd hkind hunfit.2
  · rfl

section

variable {input : Json}

/-- A template or an object is printed. -/
theorem compile_of_fit (hfit : input.kind = .string ∨ input.kind = .object) :
    input.compile = .ok ((scriptBackend.emitValue input).map Expr.text) := by
  rw [Json.compile, emitInput_of_fit scriptBackend hfit, Except.map]

/-- A template or an object is printed as a module. -/
theorem compileModule_of_fit (hfit : input.kind = .string ∨ input.kind = .object) :
    input.compileModule = .ok ((scriptBackend.emitValue input).map Expr.moduleText) := by
  rw [Json.compileModule, emitInput_of_fit scriptBackend hfit, Except.map]

/-- Any other input is neither printed nor printed as a module. -/
theorem compile_of_unfit (hunfit : ¬(input.kind = .string ∨ input.kind = .object)) :
    input.compile = .error ⟨input.kind⟩ ∧ input.compileModule = .error ⟨input.kind⟩ := by
  rw [Json.compile, Json.compileModule, emitInput_of_unfit scriptBackend hunfit]
  exact ⟨rfl, rfl⟩

end

/-- Sources of templates and objects are read back as their trees, alone and in a
module.  Every other input is refused by both backends for the same reason.  Integers
always read back, so only doubles have to be asked for. -/
theorem compile_parity (input : Json)
    (hdoubles : ∀ x : Double, .double x ∈ input.numbers → (Number.double x).ReadsBack) :
    (input.kind = .string ∨ input.kind = .object →
      ∃ planned source module, input.plan = .ok planned ∧ input.compile = .ok source ∧
        input.compileModule = .ok module ∧
        Tree.ofSource source.result = .ok planned.result ∧
        Tree.ofSource module.result = .ok planned.result) ∧
    (¬(input.kind = .string ∨ input.kind = .object) →
      input.plan = .error ⟨input.kind⟩ ∧ input.compile = .error ⟨input.kind⟩ ∧
        input.compileModule = .error ⟨input.kind⟩) ∧
    ∀ template : String,
      Tree.ofSource (Template.compile template).result =
        .ok (.cases (Template.plan template).result) := by
  have hnumbers := Number.readsBack_of_doubles hdoubles
  refine ⟨?_, ?_, ?_⟩
  · intro hfit
    have hdenotes := denotes_emitValue input hnumbers
    exact ⟨_, _, _, emitInput_of_fit treeBackend hfit, compile_of_fit hfit,
      compileModule_of_fit hfit, ofSource_text hdenotes, ofSource_moduleText hdenotes⟩
  · intro hunfit
    exact ⟨emitInput_of_unfit treeBackend hunfit, compile_of_unfit hunfit⟩
  · intro template
    have hdenotes := denotes_emitCases (parse_ne_plural_nil template)
    rw [emitCases_treeBackend] at hdenotes
    exact ofSource_text hdenotes

/-- An input with a plural template, placeholders, a list, a nested object and a
number that is no integer. -/
def nestedInput : Json :=
  .object [("greeting", .string "Hello {name}! | {0} times"),
    ("ratio", .number (.double ⟨false, 6755399441055744, -52, by decide⟩)),
    ("shop", .object [("items", .array [.string "one", .string "{n}", .null])])]

theorem compile_parity_nestedInput :
    (∀ x : Double, .double x ∈ nestedInput.numbers → (Number.double x).ReadsBack) ∧
      ∃ planned source module, nestedInput.plan = .ok planned ∧
        nestedInput.compile = .ok source ∧ nestedInput.compileModule = .ok module ∧
        Tree.ofSource source.result = .ok planned.result ∧
        Tree.ofSource module.result = .ok planned.result := by
  have hdoubles : ∀ x : Double, .double x ∈ nestedInput.numbers →
      (Number.double x).ReadsBack := by
    intro x hx
    have hratio : x = ⟨false, 6755399441055744, -52, by decide⟩ := by
      simpa [nestedInput, Json.numbers, Json.entriesNumbers, Json.itemsNumbers] using hx
    subst hratio
    unfold Number.ReadsBack
    decide +kernel
  exact ⟨hdoubles, (compile_parity nestedInput hdoubles).1 (Or.inr rfl)⟩

/-- Lists alone are refused by both backends. -/
example : (Json.array [.string "one"]).plan = .error ⟨.array⟩ ∧
    (Json.array [.string "one"]).compile = .error ⟨.array⟩ :=
  ⟨rfl, rfl⟩

/-! ## Messages -/

/-- The warnings of a message: one for each of its links, in order. -/
def Message.linkWarnings (message : Message) : List Warning :=
  message.items.filterMap Item.warning?

/-- Any message is read back from its source as its phrase, and any plural group as
its phrases, whether or not a template stands for them.  Both backends warn about
each link once, in order. -/
theorem message_roundtrip :
    (∀ message : Message,
      Tree.ofSource message.compile.result = .ok (.cases (.single message.plan.result)) ∧
        message.compile.warnings = message.linkWarnings ∧
        message.plan.warnings = message.linkWarnings) ∧
    ∀ (first : Message) (others : List Message),
      Tree.ofSource (Cases.plural (first :: others)).compile.result =
          .ok (.cases (.plural ((first :: others).map fun message => message.plan.result))) ∧
        (Cases.plural (first :: others)).compile.warnings =
          (first :: others).flatMap Message.linkWarnings ∧
        (Cases.plural (first :: others)).plan.warnings =
          (first :: others).flatMap Message.linkWarnings := by
  refine ⟨?_, ?_⟩
  · intro message
    exact ⟨ofSource_text (denotes_emitMessage message), message.warnings_outline,
      message.warnings_outline⟩
  · intro first others
    have hsome : Cases.plural (first :: others) ≠ .plural [] := by simp
    have hread := ofSource_text (denotes_emitCases hsome)
    have hwarnings := warnings_emitCases treeBackend (.plural (first :: others))
    rw [emitCases_treeBackend] at hread hwarnings
    refine ⟨?_, warnings_emitCases scriptBackend _, hwarnings⟩
    exact hread.trans (by simp [Cases.plan, Reported.all])

end Phrasebook

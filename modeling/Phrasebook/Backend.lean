import Phrasebook.Json.Basic
import Phrasebook.Outline
import Phrasebook.Template.Parse

/-!
# Backends

Messages and the values that hold them are gone through in one way, whatever is made of them.  A
backend says what becomes of each part; it neither parses nor plans anything itself.

Strings are templates, objects and arrays are nested, and all other values are kept as data.  An
array of templates with one case each, at least one of them, is a plural group written out case by
case.  Only a template or an object can stand on its own.
-/

namespace Phrasebook

/-! ## Plural groups written out -/

/-- The message of a value that is a template with one case. -/
def Json.message? : Json → Option Message
  | .string template =>
      match Template.parse template with
      | .single message => some message
      | .plural _ => none
  | _ => none

/-- The messages of an array that is a plural group. -/
def Json.group? (items : List Json) : Option (List Message) :=
  if items.isEmpty then none else items.mapM Json.message?

/-! ## Unfit input -/

/-- A value that is neither a template nor an object was given where messages were expected. -/
structure InputError where
  found : Json.Kind
  deriving DecidableEq, Repr

/-- The report of an input that holds no messages. -/
def inputReport (found : String) : String :=
  s!"cannot compile {found}: expected a message string or a key/value mapping"

/-- The report of an unfit input. -/
def InputError.message (error : InputError) : String :=
  inputReport error.found.describe

/-! ## Going through values -/

/-- What becomes of messages, as values of type `μ`, and of trees of them, as values of type `τ`. -/
structure Backend (μ τ : Type) where
  /-- A message without placeholders. -/
  fixed : String → μ
  /-- A message with placeholders, by its segments and keys. -/
  segmented : List String → List Key → μ
  /-- A template with one case. -/
  single : μ → τ
  /-- A plural group. -/
  plural : List μ → τ
  /-- An object. -/
  map : List (String × τ) → τ
  /-- An array. -/
  list : List τ → τ
  /-- A value that is not a message. -/
  data : Scalar → τ

namespace Backend

variable {μ τ : Type}

/-- What becomes of an outline. -/
def emitOutline (backend : Backend μ τ) : Outline → μ
  | .fixed text => backend.fixed text
  | .segmented segments keys => backend.segmented segments keys

/-- What becomes of a message. -/
def emitMessage (backend : Backend μ τ) (message : Message) : Reported μ :=
  message.outline.map backend.emitOutline

/-- What becomes of parsed cases. -/
def emitCases (backend : Backend μ τ) : Cases Message → Reported τ
  | .single message => (backend.emitMessage message).map backend.single
  | .plural messages => (Reported.all (messages.map backend.emitMessage)).map backend.plural

mutual

/-- What becomes of a value. -/
def emitValue (backend : Backend μ τ) : Json → Reported τ
  | .scalar value => ⟨backend.data value, []⟩
  | .string template => backend.emitCases (Template.parse template)
  | .array items =>
      match Json.group? items with
      | some messages => backend.emitCases (.plural messages)
      | none => (Reported.all (backend.emitItems items)).map backend.list
  | .object entries => (Reported.allEntries (backend.emitEntries entries)).map backend.map

/-- What becomes of the items of an array. -/
def emitItems (backend : Backend μ τ) : List Json → List (Reported τ)
  | [] => []
  | item :: items => backend.emitValue item :: backend.emitItems items

/-- What becomes of the entries of an object. -/
def emitEntries (backend : Backend μ τ) : List (String × Json) → List (String × Reported τ)
  | [] => []
  | (name, value) :: entries => (name, backend.emitValue value) :: backend.emitEntries entries

end

/-- What becomes of a value that is a template or an object. -/
def emitInput (backend : Backend μ τ) (input : Json) : Except InputError (Reported τ) :=
  match input.kind with
  | .string | .object => .ok (backend.emitValue input)
  | found => .error ⟨found⟩

theorem emitItems_eq_map (backend : Backend μ τ) (items : List Json) :
    backend.emitItems items = items.map backend.emitValue := by
  induction items with
  | nil => rfl
  | cons item items ih => simp [emitItems, ih]

theorem emitEntries_eq_map (backend : Backend μ τ) (entries : List (String × Json)) :
    backend.emitEntries entries =
      entries.map fun entry => (entry.1, backend.emitValue entry.2) := by
  induction entries with
  | nil => rfl
  | cons entry entries ih => simp [emitEntries, ih]

end Backend

end Phrasebook

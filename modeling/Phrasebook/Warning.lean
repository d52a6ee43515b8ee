/-!
# Warnings

What goes wrong without stopping anything: links are left out, and lookups miss or fall back.  A
computation that can warn returns its result together with the warnings it raised, in order.
-/

namespace Phrasebook

/-- Something that went wrong without stopping anything. -/
inductive Warning where
  /-- A link to another message was left out. -/
  | linkSkipped (key : String)
  /-- No message was found for the locale that was asked for. -/
  | missing (key locale : String)
  /-- A fallback locale supplied the message. -/
  | fellBack (key fallback : String)
  deriving DecidableEq, Repr

/-- The words for a warning. -/
def Warning.message : Warning → String
  | .linkSkipped key => s!"Linked message \"{key}\" is not supported and was skipped"
  | .missing key locale => s!"No message \"{key}\" found for locale \"{locale}\"!"
  | .fellBack key fallback => s!"Using fallback locale \"{fallback}\" for key \"{key}\"!"

/-- A result together with the warnings raised on the way to it, in order. -/
structure Reported (α : Type) where
  result : α
  warnings : List Warning
  deriving DecidableEq

namespace Reported

variable {α β : Type}

/-- Another result with the same warnings. -/
def map (f : α → β) (r : Reported α) : Reported β :=
  ⟨f r.result, r.warnings⟩

/-- Several results in order, with all their warnings. -/
def all (reports : List (Reported α)) : Reported (List α) :=
  ⟨reports.map result, reports.flatMap warnings⟩

/-- Several named results in order, with all their warnings. -/
def allEntries (reports : List (String × Reported α)) : Reported (List (String × α)) :=
  ⟨reports.map fun entry => (entry.1, entry.2.result),
    reports.flatMap fun entry => entry.2.warnings⟩

@[simp] theorem result_map (f : α → β) (r : Reported α) : (r.map f).result = f r.result := rfl

@[simp] theorem warnings_map (f : α → β) (r : Reported α) : (r.map f).warnings = r.warnings := rfl

end Reported

end Phrasebook

import Phrasebook.Glob.Search

/-!
# Finding message files

Files are named one by one or by patterns.  A name that a file has is taken as it is written, even
if it could be read as a pattern.
-/

namespace Phrasebook.Bundle

variable {m : Type → Type} [Monad m] [Storage m]

/-- A pattern that cannot be read, as it was written. -/
structure InvalidPattern where
  text : String
  error : Glob.PatternError
  deriving DecidableEq, Repr

/-- The report of a pattern that cannot be read. -/
def InvalidPattern.message (invalid : InvalidPattern) : String :=
  s!"Invalid glob pattern '{invalid.text}': {invalid.error.message}"

/-- The files that a name or pattern stands for. -/
def matching (text : String) : m (Except InvalidPattern (List Path)) := do
  if ← Storage.isFile ⟨text⟩ then return .ok [⟨text⟩]
  match Glob.Pattern.read text.toList with
  | .error error => return .error ⟨text, error⟩
  | .ok pattern => return .ok (← (← pattern.paths).filterM Storage.isFile)

/-- The files that several names or patterns stand for, one pattern after the other. -/
def matchingAll : (patterns : List String) → m (Except InvalidPattern (List Path))
  | [] => return .ok []
  | text :: patterns => do
      match ← matching text with
      | .error invalid => return .error invalid
      | .ok found => return (← matchingAll patterns).map (found ++ ·)

/-- The files that several names or patterns stand for, in order and each one once. -/
def discover (patterns : List String) : m (Except InvalidPattern (List Path)) := do
  return (← matchingAll patterns).map Path.sorted

end Phrasebook.Bundle

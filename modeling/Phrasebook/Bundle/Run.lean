import Phrasebook.Bundle.Discovery
import Phrasebook.Bundle.Module

/-!
# Compiling many files

All files that some patterns stand for are compiled.  A file that cannot be compiled is reported and
does not keep the others from being compiled; files that stand in each other's way are reported and
left alone.  Only a pattern that cannot be read, or no file at all, ends the whole run.
-/

namespace Phrasebook.Bundle

variable {m : Type → Type} [Monad m] [Storage m]

/-- Which files are meant when none are named. -/
def defaultPattern : String := "**/*.i18n.json"

/-- What to compile, and where to put it. -/
structure Settings where
  /-- Names and patterns of files. -/
  patterns : List String := [defaultPattern]
  /-- The directory for modules; without one they stand next to their inputs. -/
  directory : Option Path := none

/-- A module that was stored. -/
structure Emitted where
  input : Path
  output : Path
  deriving DecidableEq, Repr

/-- Why a file was not compiled. -/
inductive Failure where
  /-- Its module would be the same file as those of other inputs. -/
  | collision (input output : Path) (rivals : List Path)
  /-- There is no module for it. -/
  | file (fault : FileFault)
  deriving DecidableEq, Repr

/-- Several texts with a comma between each two of them. -/
def listed (texts : List String) : String :=
  ", ".intercalate texts

/-- The words for a failure. -/
def Failure.message : Failure → String
  | .collision input output rivals =>
      s!"{input.text}: output {output.text} is also written by {listed (rivals.map Path.text)}"
  | .file fault => fault.message

/-- A warning about a file. -/
structure FileWarning where
  input : Path
  warning : Warning
  deriving DecidableEq, Repr

/-- The words for a warning about a file. -/
def FileWarning.message (w : FileWarning) : String :=
  s!"{w.input.text}: {w.warning.message}"

/-- What became of the files of a run. -/
structure Report where
  emitted : List Emitted := []
  warnings : List FileWarning := []
  failures : List Failure := []
  deriving DecidableEq, Repr

/-- A run is successful when no file failed. -/
def Report.isSuccess (report : Report) : Bool :=
  report.failures.isEmpty

/-- Why there was no run. -/
inductive RunError where
  | invalidPattern (invalid : InvalidPattern)
  | noFiles (patterns : List String)
  deriving DecidableEq, Repr

/-- The words for an error. -/
def RunError.message : RunError → String
  | .invalidPattern invalid => invalid.message
  | .noFiles patterns => s!"No message files match {listed patterns}"

/-- The inputs without rivals. -/
def unrivalled (directory : Option Path) (inputs : List Path) : List Path :=
  let groups := groupsOf directory inputs
  inputs.filter fun input => (groups.rivals? directory input).isNone

/-- A failure for each input that has rivals. -/
def collisions (directory : Option Path) (inputs : List Path) : List Failure :=
  let groups := groupsOf directory inputs
  inputs.filterMap fun input =>
    (groups.rivals? directory input).map (.collision input (outputPath directory input))

/-- A report that goes on with what became of one more file. -/
def Report.add (report : Report) (input : Path) (outcome : Except FileFault (Reported Path)) :
    Report :=
  match outcome with
  | .ok stored =>
      { report with
        emitted := report.emitted ++ [⟨input, stored.result⟩]
        warnings := report.warnings ++ stored.warnings.map (⟨input, ·⟩) }
  | .error fault => { report with failures := report.failures ++ [.file fault] }

/-- Compile some inputs. -/
def compileAll (directory : Option Path) (inputs : List Path) : m Report := do
  let start : Report := { failures := collisions directory inputs }
  (unrivalled directory inputs).foldlM
    (fun report input => return report.add input (← compileFile directory input)) start

/-- Find and compile files. -/
def run (settings : Settings) : m (Except RunError Report) := do
  match ← discover settings.patterns with
  | .error invalid => return .error (.invalidPattern invalid)
  | .ok [] => return .error (.noFiles settings.patterns)
  | .ok inputs => return .ok (← compileAll settings.directory inputs)

end Phrasebook.Bundle

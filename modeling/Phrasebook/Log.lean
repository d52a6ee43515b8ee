/-!
# Logs

A logger decides which events it keeps.  One that keeps nothing, one that hands warnings and errors
to its owner, one that remembers events, and one that prints them.
-/

namespace Phrasebook

/-- How serious an event is. -/
inductive Level where
  | debug
  | info
  | warn
  | error
  deriving DecidableEq, Repr

namespace Level

/-- The rank of a level; more serious ones rank higher. -/
def rank : Level → Nat
  | .debug => 0
  | .info => 1
  | .warn => 2
  | .error => 3

/-- A level is at least another one when it ranks as high. -/
def atLeast (level bound : Level) : Bool :=
  bound.rank ≤ level.rank

/-- The mark of a level in printed lines. -/
def mark : Level → String
  | .debug => "[DEBUG]"
  | .info => "[INFO]"
  | .warn => "[WARN]"
  | .error => "[ERROR]"

end Level

/-- Something that happened, and how serious it is. -/
structure Event where
  level : Level
  text : String
  deriving DecidableEq, Repr

/-- What becomes of events: the level that a logger names as its own, and the levels it keeps. -/
structure Logger where
  level : Level
  keeps : Level → Bool

namespace Logger

/-- Keeps nothing. -/
def null : Logger :=
  ⟨.error, fun _ => false⟩

/-- Keeps warnings and errors. -/
def callback : Logger :=
  ⟨.warn, fun level => level.atLeast .warn⟩

/-- Keeps events of a level and above. -/
def atLevel (bound : Level) : Logger :=
  ⟨bound, fun level => level.atLeast bound⟩

/-- Whether a logger counts a level among those it is there for. -/
def isEnabled (logger : Logger) (level : Level) : Bool :=
  level.atLeast logger.level

/-- The events that a logger keeps, in order. -/
def kept (logger : Logger) (events : List Event) : List Event :=
  events.filter fun event => logger.keeps event.level

/-- The texts of the kept events of exactly one level. -/
def textsAt (logger : Logger) (level : Level) (events : List Event) : List String :=
  ((logger.kept events).filter fun event => event.level = level).map Event.text

end Logger

namespace Event

/-- The line that is printed for an event. -/
def line (event : Event) : String :=
  s!"{event.level.mark} {event.text}\n"

/-- Information is printed among the output, everything else among the errors. -/
def isOutput (event : Event) : Bool :=
  event.level = .info

/-- The text that is printed among the output. -/
def output (events : List Event) : String :=
  String.join ((events.filter isOutput).map line)

/-- The text that is printed among the errors. -/
def errorOutput (events : List Event) : String :=
  String.join ((events.filter fun event => !event.isOutput).map line)

end Event

end Phrasebook

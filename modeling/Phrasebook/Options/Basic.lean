import Phrasebook.Fallback

/-!
# Options

Which locale is active, which locales stand in for it, and which warnings are wanted.
-/

namespace Phrasebook

/-- Which events of a lookup are warned about. -/
structure WarnOn where
  /-- The key is missing for the locale that was asked for. -/
  miss : Bool
  /-- A fallback locale supplied the message. -/
  fallback : Bool
  deriving DecidableEq, Repr

/-- Warn about everything. -/
def WarnOn.all : WarnOn := ⟨true, true⟩

/-- The settings of a translator. -/
structure Options where
  /-- The active locale. -/
  locale : String := "en"
  /-- The locales that stand in for it. -/
  fallback : Fallback := .locale "en"
  /-- Do not warn about missing keys. -/
  silentMiss : Bool := false
  /-- Do not warn when a fallback locale supplies a message. -/
  silentFallback : Bool := false

namespace Options

/-- The settings that count where nothing else is said. -/
def default : Options := {}

/-- The events that are warned about under these settings. -/
def warnOn (options : Options) : WarnOn :=
  ⟨!options.silentMiss, !options.silentFallback⟩

/-- The same settings without any warnings. -/
def silent (options : Options) : Options :=
  { options with silentMiss := true, silentFallback := true }

/-- Silent settings warn about nothing. -/
@[simp] theorem warnOn_silent (options : Options) : options.silent.warnOn = ⟨false, false⟩ := rfl

end Options

end Phrasebook

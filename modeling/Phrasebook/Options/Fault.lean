import Phrasebook.Json.Fault
import Phrasebook.Json.Printer
import Phrasebook.Fallback

/-!
# Faults of option texts

Options are read from a JSON text.  Beside the faults of any JSON text, a value can be of the wrong
type, a field can be given twice, and a fallback setting can have a shape that no setting has.
-/

namespace Phrasebook.Options

/-- A setting. -/
inductive Field where
  | locale
  | fallback
  | silentMiss
  | silentFallback
  deriving DecidableEq, Repr

/-- The name of a setting in JSON. -/
def Field.name : Field → String
  | .locale => "locale"
  | .fallback => "fallbackLocale"
  | .silentMiss => "silentTranslationWarn"
  | .silentFallback => "silentFallbackWarn"

/-- The settings in the order in which an array gives them. -/
def Field.all : List Field :=
  [.locale, .fallback, .silentMiss, .silentFallback]

/-- The setting with this name. -/
def Field.named? (name : String) : Option Field :=
  Field.all.find? fun field => field.name = name

/-- What was to be read. -/
inductive Wanted where
  | options
  | text
  | flag
  deriving DecidableEq, Repr

/-- The words for what was to be read. -/
def Wanted.describe : Wanted → String
  | .options => "struct I18nOptions"
  | .text => "a string"
  | .flag => "a boolean"

/-- What can be wrong with a text that should be options. -/
inductive Fault where
  /-- The text is not JSON. -/
  | json (fault : Json.Fault)
  /-- A value is of another type than the wanted one. -/
  | wrongType (found : String) (wanted : Wanted)
  /-- A field is given twice. -/
  | repeated (field : Field)
  /-- A value is no fallback setting. -/
  | fallbackShape
  deriving DecidableEq, Repr

/-- The words for a fault. -/
def Fault.message : Fault → String
  | .json fault => fault.message
  | .wrongType found wanted => s!"invalid type: {found}, expected {wanted.describe}"
  | .repeated field => s!"duplicate field `{field.name}`"
  | .fallbackShape => Fallback.shapeMessage

/-- The report of a text that is no options. -/
def faultReport (text : List Char) (stop : Text.Stop Fault) : String :=
  "invalid i18n options: " ++ Json.describeAt stop.cause.message text stop

end Phrasebook.Options

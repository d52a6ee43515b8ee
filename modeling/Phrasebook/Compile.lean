import Phrasebook.Backend
import Phrasebook.Phrase.Basic
import Phrasebook.Script.Printer
import Phrasebook.Tree.Basic

/-!
# Compiling messages

Messages are compiled in two ways: into a tree of phrases in memory, and into source text that
prints that tree.  Both ways are backends of the same walk through the input.
-/

namespace Phrasebook

/-! ## The two backends -/

/-- Phrases and trees of phrases in memory. -/
def treeBackend : Backend Phrase (Tree Phrase) where
  fixed := .fixed
  segmented segments keys := .interpolated (.ofSegments segments keys)
  single phrase := .cases (.single phrase)
  plural phrases := .cases (.plural phrases)
  map entries := .map (Entries.ofList entries)
  list := .list
  data := .data

/-- Expressions of scripts, for messages and for trees alike. -/
def scriptBackend : Backend Script.Expr Script.Expr where
  fixed text := .literal (.string text)
  segmented := .ofSegments
  single := id
  plural := .array
  map := .object
  list := .array
  data value := .literal (.scalar value)

/-! ## Single messages -/

/-- The phrase of a message. -/
def Message.plan (message : Message) : Reported Phrase :=
  treeBackend.emitMessage message

/-- The source of a message. -/
def Message.compile (message : Message) : Reported String :=
  (scriptBackend.emitMessage message).map Script.Expr.text

/-- The translation of parsed cases. -/
def Cases.plan : Cases Message → Reported Translation
  | .single message => message.plan.map .single
  | .plural messages => (Reported.all (messages.map Message.plan)).map .plural

/-- The source of parsed cases. -/
def Cases.compile (cases : Cases Message) : Reported String :=
  (scriptBackend.emitCases cases).map Script.Expr.text

/-- The translation that a template stands for. -/
def Template.plan (template : String) : Reported Translation :=
  (Template.parse template).plan

/-- The source of a template. -/
def Template.compile (template : String) : Reported String :=
  (Template.parse template).compile

/-! ## Trees of messages -/

namespace Json

/-- The tree of phrases of a value that is a template or an object. -/
def plan (input : Json) : Except InputError (Reported (Tree Phrase)) :=
  treeBackend.emitInput input

/-- The source of a value that is a template or an object. -/
def compile (input : Json) : Except InputError (Reported String) :=
  (scriptBackend.emitInput input).map fun emitted => emitted.map Script.Expr.text

/-- The source of a module whose default export is the value. -/
def compileModule (input : Json) : Except InputError (Reported String) :=
  (scriptBackend.emitInput input).map fun emitted => emitted.map Script.Expr.moduleText

end Json

end Phrasebook

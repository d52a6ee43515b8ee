import Phrasebook.Render.Renderer
import Phrasebook.Resolver

/-!
# Translators

A translator resolves keys for its active locale and renders what it finds: the first case of a
plural group, or the case for a count.  The count itself answers the keys `n` and `count`, unless
the caller's context does.  A scope puts the messages of one component before those of the
translator, and can have a locale of its own.
-/

namespace Phrasebook

/-- The context that answers `n` and `count` with a count. -/
def Context.ofCount (count : Int) : Context
  | .named name => if name = "n" ∨ name = "count" then some (toString count) else none
  | .index _ => none

/-- Resolve a key and render what it stands for.  Without a count the first case is rendered; a key
that stands for nothing is rendered as itself. -/
def Resolver.translate (resolver : Resolver) (locale key : String) (count : Option Int)
    (context : Context) : Reported String :=
  (resolver.resolve key locale).map fun resolution =>
    match resolution with
    | .key key => key
    | .message translation =>
        match count with
        | none => (translation.first?.map (·.evaluate context)).getD key
        | some count =>
            let counted := context.layered (Context.ofCount count)
            ((translation.select? count).map (·.evaluate counted)).getD key

/-- Messages with an active locale. -/
structure Translator where
  locale : String
  fallback : Fallback
  warnOn : WarnOn
  messages : Catalog

namespace Translator

/-- The translator of some messages under some options. -/
def ofOptions (options : Options) (messages : Catalog) : Translator :=
  ⟨options.locale, options.fallback, options.warnOn, messages⟩

/-- The resolver of a translator. -/
def resolver (translator : Translator) : Resolver where
  shared := translator.messages
  fallback := translator.fallback
  warnOn := translator.warnOn

/-- Translate a key for the active locale. -/
def translate (translator : Translator) (key : String) (context : Context) : Reported String :=
  translator.resolver.translate translator.locale key none context

/-- Translate a key for the active locale and a count. -/
def translateCount (translator : Translator) (key : String) (count : Int) (context : Context) :
    Reported String :=
  translator.resolver.translate translator.locale key (some count) context

end Translator

/-- A translator with messages of its own before those of its parent. -/
structure Scope where
  parent : Translator
  messages : Catalog
  /-- The locale of the scope, if it is not that of its parent. -/
  ownLocale : Option String := none

namespace Scope

/-- The active locale of a scope. -/
def locale (scope : Scope) : String :=
  scope.ownLocale.getD scope.parent.locale

/-- The resolver of a scope. -/
def resolver (scope : Scope) : Resolver :=
  { scope.parent.resolver with own := scope.messages }

/-- Resolve a key without rendering it. -/
def lookup (scope : Scope) (key : String) : Reported Resolution :=
  scope.resolver.resolve key scope.locale

/-- Translate a key for the locale of the scope. -/
def translate (scope : Scope) (key : String) (context : Context) : Reported String :=
  scope.resolver.translate scope.locale key none context

/-- Translate a key for the locale of the scope and a count. -/
def translateCount (scope : Scope) (key : String) (count : Int) (context : Context) :
    Reported String :=
  scope.resolver.translate scope.locale key (some count) context

end Scope

end Phrasebook

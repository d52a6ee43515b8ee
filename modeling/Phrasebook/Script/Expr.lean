import Phrasebook.Json.Basic
import Phrasebook.Key

/-!
# Script expressions

The part of a script language that compiled messages need: literals, functions whose body is a
tagged template, arrays and objects, and the statement that makes an expression the default export
of a module.

Text without placeholders is a string literal.  Text with placeholders is a function that hands its
segments and keys to the renderer it is given.
-/

namespace Phrasebook.Script

/-- An expression. -/
inductive Expr where
  /-- A literal, written as JSON. -/
  | literal (value : Json)
  /-- A function of some parameters. -/
  | function (params : List String) (body : Expr)
  /-- A template literal behind a tag: elements of text with a hole behind each. -/
  | template (tag : Expr) (elements : List String) (holes : List Expr)
  /-- A variable. -/
  | variable (name : String)
  /-- An array. -/
  | array (items : List Expr)
  /-- An object. -/
  | object (entries : List (String × Expr))

/-- A statement. -/
inductive Statement where
  /-- The expression is the default export of the module. -/
  | exportDefault (value : Expr)
  /-- The expression alone. -/
  | expression (value : Expr)

/-- The name of the renderer in the functions that stand for phrases. -/
def rendererName : String := "i"

/-- The literal of a key: a string for a name, a number for a place. -/
def Expr.ofKey : Key → Expr
  | .named name => .literal (.string name)
  | .index place => .literal (.natural place)

/-- A function that hands segments and keys to the renderer it is given. -/
def Expr.ofSegments (segments : List String) (keys : List Key) : Expr :=
  .function [rendererName]
    (.template (.variable rendererName) segments (keys.map Expr.ofKey))

end Phrasebook.Script

import Phrasebook.Json.Printer
import Phrasebook.Script.Expr
import Phrasebook.Script.Page

/-!
# Printing scripts

Expressions are printed on a page.  Only objects break lines: each entry stands on a line of its
own, one level deeper.  Everything else stays on the line it starts on, and text inside a template
never breaks a line, because line breaks are escaped there.
-/

namespace Phrasebook.Script

/-- A text as it stands inside a template literal.  Escaped are backslashes, backticks, line breaks,
and a dollar sign right before a brace, which would open a hole. -/
def escapeTemplate : List Char → List Char
  | [] => []
  | c :: s =>
      (if c = '\\' ∨ c = '\x60' ∨ (c = '$' ∧ s.head? = some '{') then ['\\', c]
        else if c = '\n' then ['\\', 'n']
        else if c = '\r' then ['\\', 'r']
        else [c]) ++ escapeTemplate s

/-- Print the parameters of a function: one stands alone, any other number in parentheses. -/
def printParams (page : Page) : List String → Page
  | [param] => page.print param
  | params => ((page.print "(").print (", ".intercalate params)).print ")"

/-- Print an element of a template literal. -/
def printElement (page : Page) (element : String) : Page :=
  page.print (String.ofList (escapeTemplate element.toList))

mutual

/-- Print an expression. -/
def Expr.printOn (page : Page) : Expr → Page
  | .literal value => page.print value.text
  | .function params body => body.printOn ((printParams page params).print " => ")
  | .template tag elements holes =>
      (Expr.printHoles ((tag.printOn page).print "\x60") elements holes).print "\x60"
  | .variable name => page.print name
  | .array [] => (page.print "[").print "]"
  | .array (item :: items) =>
      (Expr.printItems (item.printOn (page.print "[")) items).print "]"
  | .object [] => page.print "\x7b\x7d"
  | .object (entry :: entries) =>
      let opened := (page.print "\x7b").newLine.indent
      (Expr.printEntries (entry.2.printOn ((opened.print (Json.quote entry.1)).print ": "))
        entries).newLine.outdent.print "\x7d"

/-- Print elements, and behind each of them its hole if it has one. -/
def Expr.printHoles (page : Page) (elements : List String) : List Expr → Page
  | [] => elements.foldl printElement page
  | hole :: holes =>
      match elements with
      | [] => page
      | element :: elements =>
          let opened := (printElement page element).print "$\x7b"
          Expr.printHoles ((hole.printOn opened).print "\x7d") elements holes

/-- Print items, each behind a comma. -/
def Expr.printItems (page : Page) : List Expr → Page
  | [] => page
  | item :: items => Expr.printItems (item.printOn (page.print ", ")) items

/-- Print entries, each behind a comma on a line of its own. -/
def Expr.printEntries (page : Page) : List (String × Expr) → Page
  | [] => page
  | (name, value) :: entries =>
      let line := ((page.print ",").newLine.print (Json.quote name)).print ": "
      Expr.printEntries (value.printOn line) entries

end

/-- Print a statement and end its line. -/
def Statement.printOn (page : Page) : Statement → Page
  | .exportDefault value => ((value.printOn (page.print "export default ")).print ";").newLine
  | .expression value => ((value.printOn page).print ";").newLine

/-- The text of an expression. -/
def Expr.text (expr : Expr) : String :=
  (expr.printOn (Page.start 0)).text

/-- The text of a module with one default export. -/
def Expr.moduleText (expr : Expr) : String :=
  ((Statement.exportDefault expr).printOn (Page.start 0)).text

end Phrasebook.Script

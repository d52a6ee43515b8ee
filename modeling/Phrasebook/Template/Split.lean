import Phrasebook.Template.Token
import Phrasebook.Text.Pieces

/-!
# The cases of a template

A template is cut into cases at its bars.  A bar right behind a backslash does not cut, and neither
does a bar inside a literal token.  The cases are freed of the white space at their ends.
-/

namespace Phrasebook.Template

open Text

/-- Cut a text at its bars; `escaped` tells whether the character before it is a backslash. -/
def cut (escaped : Bool) : List Char → List (List Char)
  | [] => [[]]
  | c :: s =>
      match h : literal? (c :: s) with
      | some (_, rest) =>
          have : rest.length < s.length + 1 := length_of_literal? h
          attach ((c :: s).take ((c :: s).length - rest.length)) (cut false rest)
      | none =>
          if c = '|' ∧ escaped = false then [] :: cut false s
          else attach [c] (cut (c = '\\') s)
termination_by s => s.length

/-- The cases of a template, as text. -/
def split (template : String) : List String :=
  (cut false template.toList).map fun segment => String.ofList (trim segment)

/-- There is always at least one case. -/
theorem cut_ne_nil (escaped : Bool) (s : List Char) : cut escaped s ≠ [] := by
  unfold cut
  split
  · simp
  · split
    · exact attach_ne_nil _ _
    · split
      · simp
      · exact attach_ne_nil _ _

end Phrasebook.Template

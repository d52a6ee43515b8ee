/-!
# Pages

A page is a text under construction, kept as lines.  A line remembers the parts printed on it and
its indentation, which is settled by the first part: as long as a line is empty, changing the
indentation of the page changes that of the line as well.

Levels of indentation are counted in a machine word.  One level more than the highest is none at
all, and there is nothing below none.  The spaces that are written for a level are not limited.

Main results:

- `toNat_deeper` and `toNat_shallower` say what the next level and the one before are as numbers.
- `shallower_deeper` says that going one level deeper is taken back where there is such a level.
- `Page.settled_print`, `Page.settled_newLine`, `Page.settled_indent` and `Page.settled_outdent`
  say that an empty current line always has the indentation of the page.
-/

namespace Phrasebook.Script

/-- The next level of indentation.  Counting starts again behind the highest one. -/
def deeper (level : UInt64) : UInt64 :=
  level + 1

/-- The level of indentation before this one, if there is one. -/
def shallower (level : UInt64) : UInt64 :=
  if level = 0 then 0 else level - 1

theorem toNat_deeper (level : UInt64) : (deeper level).toNat = (level.toNat + 1) % UInt64.size := by
  simp [deeper]

theorem toNat_shallower (level : UInt64) : (shallower level).toNat = level.toNat - 1 := by
  unfold shallower
  split
  · rename_i hzero
    simp [hzero]
  · rename_i hzero
    have hpos : 0 < level.toNat :=
      Nat.pos_of_ne_zero fun hlevel => hzero (UInt64.toNat_inj.mp hlevel)
    exact UInt64.toNat_sub_of_le _ _ (UInt64.le_iff_toNat_le.mpr hpos)

/-- Below the highest level, the next one is one more. -/
theorem toNat_deeper_of_lt {level : UInt64} (hlevel : level.toNat + 1 < UInt64.size) :
    (deeper level).toNat = level.toNat + 1 := by
  rw [toNat_deeper, Nat.mod_eq_of_lt hlevel]

/-- Below the highest level, going to the next one can be taken back. -/
theorem shallower_deeper {level : UInt64} (hlevel : level.toNat + 1 < UInt64.size) :
    shallower (deeper level) = level := by
  apply UInt64.toNat_inj.mp
  rw [toNat_shallower, toNat_deeper_of_lt hlevel, Nat.add_sub_cancel]

/-- A line: the parts printed on it and the levels it is indented by. -/
structure Line where
  parts : List String
  level : UInt64
  deriving DecidableEq, Repr

/-- A line with no parts yet. -/
def Line.blank (level : UInt64) : Line :=
  ⟨[], level⟩

/-- The text of a line: two spaces for each level and the parts, and nothing for a line without
parts. -/
def Line.text (line : Line) : String :=
  if line.parts.isEmpty then ""
  else String.ofList (List.replicate (2 * line.level.toNat) ' ') ++ String.join line.parts

/-- A text under construction: the lines that are done, the line being printed on, and the level
of indentation. -/
structure Page where
  done : List Line
  current : Line
  level : UInt64
  deriving DecidableEq, Repr

namespace Page

/-- The page with one empty line. -/
def start (level : UInt64) : Page :=
  ⟨[], Line.blank level, level⟩

/-- All lines.  There is always at least one. -/
def lines (page : Page) : List Line :=
  page.done ++ [page.current]

/-- Whether nothing is printed on the current line yet. -/
def lineIsEmpty (page : Page) : Bool :=
  page.current.parts.isEmpty

/-- Print a part on the current line.  An empty part is no part. -/
def print (page : Page) (part : String) : Page :=
  if part = "" then page
  else { page with current := { page.current with parts := page.current.parts ++ [part] } }

/-- Go on to a new line. -/
def newLine (page : Page) : Page :=
  { page with done := page.lines, current := Line.blank page.level }

/-- Change the level of indentation.  The current line follows while it is empty. -/
def setLevel (page : Page) (level : UInt64) : Page :=
  if page.lineIsEmpty then { page with level, current := { page.current with level } }
  else { page with level }

/-- Indent by one more level. -/
def indent (page : Page) : Page :=
  page.setLevel (deeper page.level)

/-- Indent by one level less, if there is one. -/
def outdent (page : Page) : Page :=
  page.setLevel (shallower page.level)

/-- The text of a page: its lines, with a line break between each two of them. -/
def text (page : Page) : String :=
  "\n".intercalate (page.lines.map Line.text)

/-- An empty current line has the indentation of the page. -/
def Settled (page : Page) : Prop :=
  page.lineIsEmpty = true → page.current.level = page.level

theorem settled_start (level : UInt64) : (start level).Settled := fun _ => rfl

theorem settled_print {page : Page} (h : page.Settled) (part : String) :
    (page.print part).Settled := by
  unfold print
  split
  · exact h
  · intro empty
    simp [lineIsEmpty] at empty

theorem settled_newLine (page : Page) : page.newLine.Settled := fun _ => rfl

theorem settled_setLevel (page : Page) (level : UInt64) : (page.setLevel level).Settled := by
  unfold setLevel
  split
  · intro _
    rfl
  · intro empty
    contradiction

theorem settled_indent (page : Page) : page.indent.Settled := settled_setLevel _ _

theorem settled_outdent (page : Page) : page.outdent.Settled := settled_setLevel _ _

end Page

end Phrasebook.Script

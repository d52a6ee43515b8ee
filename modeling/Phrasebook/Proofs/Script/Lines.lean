import Phrasebook.Proofs.Script.Layout
import Phrasebook.Proofs.Script.Literals

/-!
# Lines of a page

The text of a page is its lines with a line break between each two of them.  As long
as no part on the page breaks a line, the text has no other line breaks, so what
happens to the lines of a page can be told from its text.

Main results:

- Theorems `unbroken_quote`, `unbroken_escapeTemplate` and `unbroken_text`: strings,
  template text and literals are printed without line breaks, whatever they hold.
- Theorem `Page.splitOn_text`: the lines of a text are those of its page.
- Theorem `Page.text_deepen`: levels added to all lines of a page show as indentation
  of the lines of its text, except of the empty ones.
-/

namespace Phrasebook.Script

open Text

/-! ## Texts without line breaks -/

/-- No line breaks in a text. -/
def Unbroken (text : String) : Prop :=
  '\n' ∉ text.toList

instance : DecidablePred Unbroken :=
  fun text => inferInstanceAs (Decidable ('\n' ∉ text.toList))

theorem unbroken_append {front back : String} (hfront : Unbroken front)
    (hback : Unbroken back) : Unbroken (front ++ back) := by
  simpa [Unbroken] using ⟨hfront, hback⟩

theorem notMem_intercalate {separator : List Char} (hseparator : '\n' ∉ separator)
    {pieces : List (List Char)} (hpieces : ∀ piece ∈ pieces, '\n' ∉ piece) :
    '\n' ∉ separator.intercalate pieces := by
  induction pieces with
  | nil => simp
  | cons first others ih =>
    have hfirst := hpieces first List.mem_cons_self
    have hothers := ih fun piece hpiece => hpieces piece (List.mem_cons_of_mem _ hpiece)
    cases others with
    | nil => simpa using hfirst
    | cons second others =>
      rw [List.intercalate_cons_cons]
      simp [hfirst, hseparator, hothers]

/-- Texts without line breaks can be joined without making one. -/
theorem unbroken_intercalate (separator : String) (hseparator : Unbroken separator)
    {texts : List String} (htexts : ∀ text ∈ texts, Unbroken text) :
    Unbroken (separator.intercalate texts) := by
  rw [Unbroken, String.toList_intercalate]
  refine notMem_intercalate hseparator ?_
  intro piece hpiece
  obtain ⟨text, htext, rfl⟩ := List.mem_map.mp hpiece
  exact htexts text htext

/-- A line break in a string is printed as a backslash and a letter. -/
theorem notMem_escapeChar (c : Char) : '\n' ∉ Json.escapeChar c := by
  rcases Json.escapeChar_cases c with ⟨letter, hescape, hletter⟩ | ⟨hescape, -⟩ |
    ⟨hescape, -, -, hcontrol⟩
  · have hne : '\n' ≠ letter := by
      rintro rfl
      simp [Json.shortEscape?] at hletter
    simp [hescape, hne]
  · have hdigit : ∀ n, '\n' ≠ Nat.digitChar n :=
      fun n => (Nat.digitChar_ne _ (by decide)).symm
    simp [hescape, hdigit]
  · have hne : '\n' ≠ c := by
      rintro rfl
      exact hcontrol (by decide)
    simp [hescape, hne]

theorem unbroken_quote (text : String) : Unbroken (Json.quote text) := by
  rw [Unbroken, Json.toList_quote]
  simp [List.mem_flatMap, notMem_escapeChar]

/-- A line break in a template is printed as a backslash and a letter. -/
theorem notMem_escapeTemplate (text : List Char) : '\n' ∉ escapeTemplate text := by
  induction text with
  | nil => simp [escapeTemplate]
  | cons c text ih =>
    rw [escapeTemplate, List.mem_append, not_or]
    refine ⟨?_, ih⟩
    split
    · rename_i hescaped
      rintro hbreak
      have hc : c = '\n' := by simpa [eq_comm] using hbreak
      simp [hc] at hescaped
    split
    · decide
    split
    · decide
    · rename_i hbreak _
      simpa [eq_comm] using hbreak

theorem unbroken_escapeTemplate (element : String) :
    Unbroken (String.ofList (escapeTemplate element.toList)) := by
  simpa [Unbroken] using notMem_escapeTemplate element.toList

theorem unbroken_scalar (value : Scalar) : Unbroken value.text := by
  cases value with
  | null => decide
  | bool b => cases b <;> decide
  | number n =>
    intro hbreak
    exact absurd (isNumberChar_of_mem_text hbreak) (by decide)

mutual

/-- A literal is printed on one line, whatever the strings in it hold. -/
theorem unbroken_text : ∀ value : Json, Unbroken value.text
  | .scalar value => unbroken_scalar value
  | .string text => unbroken_quote text
  | .array items => by
      have hitems := unbroken_intercalate "," (by decide)
        (unbroken_itemTexts items)
      exact unbroken_append (unbroken_append (by decide) hitems) (by decide)
  | .object entries => by
      have hentries := unbroken_intercalate "," (by decide)
        (unbroken_entryTexts entries)
      exact unbroken_append (unbroken_append (by decide) hentries) (by decide)

theorem unbroken_itemTexts : ∀ items : List Json,
    ∀ text ∈ Json.itemTexts items, Unbroken text
  | [] => by simp [Json.itemTexts]
  | item :: items => by
      simp only [Json.itemTexts, List.forall_mem_cons]
      exact ⟨unbroken_text item, unbroken_itemTexts items⟩

theorem unbroken_entryTexts : ∀ entries : List (String × Json),
    ∀ text ∈ Json.entryTexts entries, Unbroken text
  | [] => by simp [Json.entryTexts]
  | (name, value) :: entries => by
      simp only [Json.entryTexts, List.forall_mem_cons]
      have hname := unbroken_append (unbroken_quote name) (show Unbroken ":" by decide)
      exact ⟨unbroken_append hname (unbroken_text value), unbroken_entryTexts entries⟩

end

/-! ## Lines with something on them -/

/-- Each part on a line says something and breaks no line, and the line is not indented by
more than some levels. -/
structure Line.Plain (bound : Nat) (line : Line) : Prop where
  /-- The parts are no empty ones, and no line breaks are in them. -/
  parts : ∀ part ∈ line.parts, part ≠ "" ∧ Unbroken part
  /-- The levels do not exceed the bound. -/
  level : line.level.toNat ≤ bound

/-- A page of plain lines, itself at no more than some levels. -/
structure Page.Plain (bound : Nat) (page : Page) : Prop where
  /-- The finished lines are plain. -/
  done : ∀ line ∈ page.done, line.Plain bound
  /-- The current line is plain. -/
  current : page.current.Plain bound
  /-- The next line will be at a level within the bound. -/
  level : page.level.toNat ≤ bound

namespace Page

variable {bound : Nat}

theorem plain_start {level : UInt64} (hlevel : level.toNat ≤ bound) :
    (start level).Plain bound where
  done := by simp [start]
  current := ⟨by simp [start, Line.blank], hlevel⟩
  level := hlevel

theorem Plain.lines {page : Page} (hpage : page.Plain bound) :
    ∀ line ∈ page.lines, line.Plain bound := by
  intro line hline
  rcases List.mem_append.mp hline with hline | hline
  · exact hpage.done line hline
  · rw [List.mem_singleton.mp hline]
    exact hpage.current

theorem Plain.print {page : Page} (hpage : page.Plain bound) (part : String)
    (hpart : Unbroken part) : (page.print part).Plain bound := by
  unfold Page.print
  split
  · exact hpage
  · rename_i hsome
    refine ⟨hpage.done, ⟨?_, hpage.current.level⟩, hpage.level⟩
    intro other hother
    rcases List.mem_append.mp hother with hother | hother
    · exact hpage.current.parts other hother
    · rw [List.mem_singleton.mp hother]
      exact ⟨hsome, hpart⟩

theorem Plain.newLine {page : Page} (hpage : page.Plain bound) :
    page.newLine.Plain bound where
  done := hpage.lines
  current := ⟨by simp [Page.newLine, Line.blank], hpage.level⟩
  level := hpage.level

theorem Plain.setLevel {page : Page} (hpage : page.Plain bound) {level : UInt64}
    (hlevel : level.toNat ≤ bound) : (page.setLevel level).Plain bound := by
  unfold Page.setLevel
  split
  · exact ⟨hpage.done, ⟨hpage.current.parts, hlevel⟩, hlevel⟩
  · exact ⟨hpage.done, hpage.current, hlevel⟩

theorem Plain.indent {page : Page} (hpage : page.Plain bound)
    (hlevel : page.level.toNat + 1 ≤ bound) : page.indent.Plain bound := by
  refine hpage.setLevel ?_
  rw [toNat_deeper]
  exact (Nat.mod_le _ _).trans hlevel

theorem Plain.outdent {page : Page} (hpage : page.Plain bound) :
    page.outdent.Plain bound := by
  refine hpage.setLevel ?_
  rw [toNat_shallower]
  exact (Nat.sub_le _ _).trans hpage.level

end Page

section

variable {bound : Nat}

/-- The text of a plain line has no line break. -/
theorem Line.Plain.unbroken_text {line : Line} (hline : line.Plain bound) :
    Unbroken line.text := by
  by_cases hparts : line.parts = []
  · simp [Line.text, hparts, Unbroken]
  · rw [Unbroken, Line.toList_text_of_ne_nil hparts, List.mem_append, not_or]
    refine ⟨by simp [indentation], ?_⟩
    rw [List.mem_flatMap]
    rintro ⟨part, hpart, hbreak⟩
    exact (hline.parts part hpart).2 hbreak

/-- The text of a plain line with something on it is not empty. -/
theorem Line.Plain.text_ne_nil {line : Line} (hline : line.Plain bound)
    (hparts : line.parts ≠ []) : line.text.toList ≠ [] := by
  obtain ⟨part, others, hsplit⟩ := List.exists_cons_of_ne_nil hparts
  have hpart : part ≠ "" := (hline.parts part (by simp [hsplit])).1
  rw [Line.toList_text_of_ne_nil hparts, hsplit]
  simp [hpart]

/-- The lines of the text of a plain page are the texts of its lines. -/
theorem Page.splitOn_text {page : Page} (hpage : page.Plain bound) :
    page.text.toList.splitOn '\n' = page.lines.map fun line => line.text.toList := by
  have htext : page.text.toList =
      ['\n'].intercalate (page.lines.map fun line => line.text.toList) := by
    simp [Page.text, String.toList_intercalate, Function.comp_def]
  rw [htext]
  refine List.splitOn_intercalate '\n' ?_ (by simp [Page.lines])
  intro piece hpiece
  obtain ⟨line, hline, rfl⟩ := List.mem_map.mp hpiece
  exact (hpage.lines line hline).unbroken_text

/-! ## Lines further to the right -/

/-- A line of a text with levels of indentation put in front, if it is not empty. -/
def indentLine (levels : Nat) (line : List Char) : List Char :=
  if line = [] then [] else indentation levels ++ line

/-- A text with levels of indentation put in front of each line that is not empty. -/
def indentLines (levels : Nat) (text : String) : String :=
  String.ofList (['\n'].intercalate ((text.toList.splitOn '\n').map (indentLine levels)))

/-- The same line with more levels. -/
def Line.deepen (levels : UInt64) (line : Line) : Line :=
  { line with level := line.level + levels }

/-- The same page with more levels, those of its lines included. -/
def Page.deepen (levels : UInt64) (page : Page) : Page :=
  ⟨page.done.map (Line.deepen levels), page.current.deepen levels, page.level + levels⟩

theorem indentation_add (level levels : Nat) :
    indentation (level + levels) = indentation levels ++ indentation level := by
  rw [indentation, indentation, indentation, List.replicate_append_replicate]
  congr 1
  omega

/-- More levels of a line show as more indentation, unless nothing is on it. -/
theorem Line.text_deepen {line : Line} (hline : line.Plain bound) {levels : UInt64}
    (hfits : bound + levels.toNat < UInt64.size) :
    (line.deepen levels).text.toList = indentLine levels.toNat line.text.toList := by
  by_cases hparts : line.parts = []
  · simp [Line.text, Line.deepen, indentLine, hparts]
  · have hlevel : (line.level + levels).toNat = line.level.toNat + levels.toNat := by
      have hbound := hline.level
      have hsum : line.level.toNat + levels.toNat < UInt64.size := by omega
      rw [UInt64.toNat_add, Nat.mod_eq_of_lt hsum]
    rw [indentLine, if_neg (hline.text_ne_nil hparts), Line.toList_text_of_ne_nil hparts,
      @Line.toList_text_of_ne_nil (line.deepen levels) hparts, Line.deepen, hlevel,
      indentation_add, List.append_assoc]

end

namespace Page

variable (levels : UInt64) (page : Page)

theorem lines_deepen : (page.deepen levels).lines = page.lines.map (Line.deepen levels) := by
  simp [lines, deepen]

theorem start_eq_deepen : start levels = (start 0).deepen levels := by
  simp [start, deepen, Line.deepen, Line.blank]

@[simp] theorem level_deepen : (page.deepen levels).level = page.level + levels := rfl

@[simp] theorem deepen_print (part : String) :
    (page.deepen levels).print part = (page.print part).deepen levels := by
  unfold print
  split <;> rfl

@[simp] theorem deepen_newLine :
    (page.deepen levels).newLine = page.newLine.deepen levels := by
  rw [newLine, lines_deepen, newLine]
  rfl

theorem deepen_setLevel (level : UInt64) :
    (page.deepen levels).setLevel (level + levels) =
      (page.setLevel level).deepen levels := by
  unfold setLevel
  rw [show (page.deepen levels).lineIsEmpty = page.lineIsEmpty from rfl]
  split <;> rfl

@[simp] theorem deepen_indent : (page.deepen levels).indent = page.indent.deepen levels := by
  have hlevel : deeper (page.level + levels) = deeper page.level + levels := by
    rw [deeper, deeper, UInt64.add_assoc, UInt64.add_comm levels, ← UInt64.add_assoc]
  rw [indent, level_deepen, hlevel, deepen_setLevel, indent]

variable {page levels} in
/-- Taking a level back commutes with adding levels where there is one to take back. -/
theorem deepen_outdent (hlevel : 0 < page.level.toNat)
    (hfits : page.level.toNat + levels.toNat < UInt64.size) :
    (page.deepen levels).outdent = page.outdent.deepen levels := by
  have hless : shallower (page.level + levels) = shallower page.level + levels := by
    have hsum : page.level.toNat - 1 + levels.toNat < UInt64.size := by omega
    apply UInt64.toNat_inj.mp
    rw [toNat_shallower, UInt64.toNat_add, UInt64.toNat_add, toNat_shallower,
      Nat.mod_eq_of_lt hfits, Nat.mod_eq_of_lt hsum]
    omega
  rw [outdent, level_deepen, hless, deepen_setLevel, outdent]

variable {page levels} in
/-- Levels added to a plain page show as indentation of its lines. -/
theorem text_deepen {bound : Nat} (hpage : page.Plain bound)
    (hfits : bound + levels.toNat < UInt64.size) :
    (page.deepen levels).text = indentLines levels.toNat page.text := by
  have hlines : (page.deepen levels).lines.map (fun line => line.text.toList) =
      (page.lines.map fun line => line.text.toList).map (indentLine levels.toNat) := by
    rw [lines_deepen, List.map_map, List.map_map]
    exact List.map_congr_left fun line hline =>
      Line.text_deepen (hpage.lines line hline) hfits
  apply String.toList_injective
  rw [indentLines, splitOn_text hpage, ← hlines]
  simp [text, String.toList_intercalate, Function.comp_def]

end Page

end Phrasebook.Script

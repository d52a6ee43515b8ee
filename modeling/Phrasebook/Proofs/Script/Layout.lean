import Phrasebook.Script.Printer

/-!
# Layout of printed scripts

Printing works on pages, which settle the indentation of a line when its first
part arrives.  What ends up on a page is nevertheless a text that depends on the
expression and on the level of indentation alone.  This module names that text
and shows that printing appends it.

Main results:

- Definitions `Expr.levelBehind` and `Expr.source`: the level behind an expression
  and its text, when it is printed at a level of indentation.
- Theorems `level_printOn` and `prints_printOn`: printing an expression leads to
  this level and appends this text to the page.
- Theorem `levelBehind_eq`: the level is what it was when there are enough levels
  for the objects in the expression.
- Theorems `toList_text` and `toList_moduleText`: a printed expression and a
  printed module are their sources at level zero.
-/

namespace Phrasebook.Script

/-! ## The text that a page amounts to -/

/-- The white space in front of a line. -/
def indentation (level : Nat) : List Char :=
  List.replicate (2 * level) ' '

@[simp] theorem indentation_zero : indentation 0 = [] := rfl

/-- The text of the finished lines, each with its line break. -/
def Page.finished (page : Page) : List Char :=
  page.done.flatMap fun line => line.text.toList ++ ['\n']

/-- The text of a page, with the indentation of the current line written out
even while that line is empty. -/
def Page.flow (page : Page) : List Char :=
  page.finished ++ indentation page.current.level.toNat ++
    page.current.parts.flatMap String.toList

private theorem intercalate_concat (separator last : List Char)
    (texts : List (List Char)) :
    separator.intercalate (texts ++ [last]) =
      texts.flatMap (· ++ separator) ++ last := by
  induction texts with
  | nil => simp
  | cons first texts ih =>
    obtain ⟨next, others, hsplit⟩ :
        ∃ next others, texts ++ [last] = next :: others :=
      List.exists_cons_of_ne_nil (by simp)
    rw [List.cons_append, hsplit, List.intercalate_cons_cons, ← hsplit, ih]
    simp

/-- A line with a part on it is its indentation and its parts. -/
theorem Line.toList_text_of_ne_nil {line : Line} (hparts : line.parts ≠ []) :
    line.text.toList =
      indentation line.level.toNat ++ line.parts.flatMap String.toList := by
  have hnonempty : line.parts.isEmpty = false := by
    simpa using hparts
  simp [Line.text, hnonempty, indentation, String.toList_join]

namespace Page

/-- The text of a page is that of its finished lines and its current line. -/
theorem toList_text_eq (page : Page) :
    page.text.toList = page.finished ++ page.current.text.toList := by
  simp only [text, lines, finished, String.toList_intercalate, List.map_append,
    List.map_cons, List.map_nil, intercalate_concat, List.flatMap_map]
  rfl

/-- With a part on the current line, a page amounts to its flow. -/
theorem toList_text_of_parts_ne_nil {page : Page}
    (hparts : page.current.parts ≠ []) : page.text.toList = page.flow := by
  rw [toList_text_eq, Line.toList_text_of_ne_nil hparts, flow, List.append_assoc]

/-- Without indentation, a page amounts to its flow, even while its current line
is empty. -/
theorem toList_text_of_level_eq_zero {page : Page}
    (hlevel : page.current.level = 0) : page.text.toList = page.flow := by
  by_cases hparts : page.current.parts = []
  · simp [toList_text_eq, flow, Line.text, hparts, hlevel]
  · exact toList_text_of_parts_ne_nil hparts

@[simp] theorem flow_start (level : UInt64) :
    (start level).flow = indentation level.toNat := by
  simp [flow, finished, start, Line.blank]

@[simp] theorem level_start (level : UInt64) : (start level).level = level := rfl

/-- Printing a part appends it, also when it is empty. -/
@[simp] theorem flow_print (page : Page) (part : String) :
    (page.print part).flow = page.flow ++ part.toList := by
  unfold print
  split
  · rename_i hempty
    simp [hempty]
  · simp [flow, finished]

@[simp] theorem level_print (page : Page) (part : String) :
    (page.print part).level = page.level := by
  unfold print
  split <;> rfl

theorem parts_print_ne_nil (page : Page) {part : String} (hpart : part ≠ "") :
    (page.print part).current.parts ≠ [] := by
  simp [print, hpart]

/-- A new line finishes the current one. -/
theorem finished_newLine {page : Page} (hparts : page.current.parts ≠ []) :
    page.newLine.finished = page.flow ++ ['\n'] := by
  simp [flow, newLine, finished, lines, Line.toList_text_of_ne_nil hparts]

/-- A new line ends the current one and starts at the level of the page. -/
theorem flow_newLine {page : Page} (hparts : page.current.parts ≠ []) :
    page.newLine.flow = page.flow ++ '\n' :: indentation page.level.toNat := by
  rw [flow, finished_newLine hparts]
  simp [newLine, Line.blank]

/-- A new line that is indented right away starts one level deeper. -/
theorem flow_newLine_indent {page : Page} (hparts : page.current.parts ≠ []) :
    page.newLine.indent.flow =
      page.flow ++ '\n' :: indentation (deeper page.level).toNat := by
  rw [flow, show page.newLine.indent.finished = page.newLine.finished from rfl,
    finished_newLine hparts]
  simp [newLine, indent, setLevel, lineIsEmpty, Line.blank]

/-- A new line that is outdented right away starts one level less deep. -/
theorem flow_newLine_outdent {page : Page} (hparts : page.current.parts ≠ []) :
    page.newLine.outdent.flow =
      page.flow ++ '\n' :: indentation (shallower page.level).toNat := by
  rw [flow, show page.newLine.outdent.finished = page.newLine.finished from rfl,
    finished_newLine hparts]
  simp [newLine, outdent, setLevel, lineIsEmpty, Line.blank]

/-- A new line at the end of a page shows as a line break. -/
theorem toList_text_newLine {page : Page} (hparts : page.current.parts ≠ []) :
    page.newLine.text.toList = page.flow ++ ['\n'] := by
  rw [toList_text_eq, finished_newLine hparts]
  simp [newLine, Line.blank, Line.text]

@[simp] theorem level_newLine (page : Page) : page.newLine.level = page.level := rfl

@[simp] theorem level_setLevel (page : Page) (level : UInt64) :
    (page.setLevel level).level = level := by
  unfold setLevel
  split <;> rfl

@[simp] theorem level_indent (page : Page) : page.indent.level = deeper page.level :=
  level_setLevel _ _

@[simp] theorem level_outdent (page : Page) :
    page.outdent.level = shallower page.level :=
  level_setLevel _ _

end Page

/-! ## Sources of expressions -/

mutual

/-- The level of indentation behind an expression that is printed at a level.  It is the
same, unless the objects in the expression need more levels than there are. -/
def Expr.levelBehind (level : UInt64) : Expr → UInt64
  | .literal _ => level
  | .function _ body => body.levelBehind level
  | .template tag elements holes =>
      Expr.holesLevelBehind (tag.levelBehind level) elements holes
  | .variable _ => level
  | .array items => Expr.itemsLevelBehind level items
  | .object [] => level
  | .object ((_, value) :: entries) =>
      shallower (Expr.entriesLevelBehind (value.levelBehind (deeper level)) entries)

/-- The level behind the elements and holes of a template. -/
def Expr.holesLevelBehind (level : UInt64) (elements : List String) : List Expr → UInt64
  | [] => level
  | hole :: holes =>
      match elements with
      | [] => level
      | _ :: elements => Expr.holesLevelBehind (hole.levelBehind level) elements holes

/-- The level behind items of an array. -/
def Expr.itemsLevelBehind (level : UInt64) : List Expr → UInt64
  | [] => level
  | item :: items => Expr.itemsLevelBehind (item.levelBehind level) items

/-- The level behind entries of an object. -/
def Expr.entriesLevelBehind (level : UInt64) : List (String × Expr) → UInt64
  | [] => level
  | (_, value) :: entries => Expr.entriesLevelBehind (value.levelBehind level) entries

end

/-- The text of the parameters of a function. -/
def paramsSource : List String → List Char
  | [param] => param.toList
  | params => '(' :: (", ".intercalate params).toList ++ [')']

mutual

/-- The text of an expression that stands at a level of indentation. -/
def Expr.source (level : UInt64) : Expr → List Char
  | .literal value => value.text.toList
  | .function params body => paramsSource params ++ " => ".toList ++ body.source level
  | .template tag elements holes =>
      tag.source level ++ '\x60' :: Expr.holesSource (tag.levelBehind level) elements holes ++
        ['\x60']
  | .variable name => name.toList
  | .array [] => ['[', ']']
  | .array (item :: items) =>
      '[' :: item.source level ++ Expr.itemsSource (item.levelBehind level) items ++ [']']
  | .object [] => ['{', '}']
  | .object ((name, value) :: entries) =>
      let inside := value.levelBehind (deeper level)
      let behind := shallower (Expr.entriesLevelBehind inside entries)
      '{' :: '\n' :: indentation (deeper level).toNat ++ (Json.quote name).toList ++
        [':', ' '] ++ value.source (deeper level) ++ Expr.entriesSource inside entries ++
        '\n' :: indentation behind.toNat ++ ['}']

/-- The text of the elements and holes of a template. -/
def Expr.holesSource (level : UInt64) (elements : List String) : List Expr → List Char
  | [] => elements.flatMap fun element => escapeTemplate element.toList
  | hole :: holes =>
      match elements with
      | [] => []
      | element :: elements =>
          escapeTemplate element.toList ++ ['$', '{'] ++ hole.source level ++
            '}' :: Expr.holesSource (hole.levelBehind level) elements holes

/-- The text of the items of an array after the first. -/
def Expr.itemsSource (level : UInt64) : List Expr → List Char
  | [] => []
  | item :: items =>
      [',', ' '] ++ item.source level ++ Expr.itemsSource (item.levelBehind level) items

/-- The text of the entries of an object after the first. -/
def Expr.entriesSource (level : UInt64) : List (String × Expr) → List Char
  | [] => []
  | (name, value) :: entries =>
      [',', '\n'] ++ indentation level.toNat ++ (Json.quote name).toList ++ [':', ' '] ++
        value.source level ++ Expr.entriesSource (value.levelBehind level) entries

end

/-! ## Levels behind printed expressions -/

@[simp] theorem level_printParams (page : Page) (params : List String) :
    (printParams page params).level = page.level := by
  unfold printParams
  split <;> simp

@[simp] theorem level_printElement (page : Page) (element : String) :
    (printElement page element).level = page.level :=
  Page.level_print _ _

theorem level_printElements (page : Page) (elements : List String) :
    (elements.foldl printElement page).level = page.level := by
  induction elements generalizing page with
  | nil => rfl
  | cons element elements ih => rw [List.foldl_cons, ih, level_printElement]

mutual

/-- Printing an expression leads to the level behind it. -/
theorem level_printOn (page : Page) :
    ∀ expr : Expr, (expr.printOn page).level = expr.levelBehind page.level
  | .literal value => by simp [Expr.printOn, Expr.levelBehind]
  | .function params body => by
      simp [Expr.printOn, Expr.levelBehind, level_printOn _ body]
  | .template tag elements holes => by
      simp [Expr.printOn, Expr.levelBehind, level_printOn _ tag,
        level_printHoles _ elements holes]
  | .variable name => by simp [Expr.printOn, Expr.levelBehind]
  | .array [] => by simp [Expr.printOn, Expr.levelBehind, Expr.itemsLevelBehind]
  | .array (item :: items) => by
      simp [Expr.printOn, Expr.levelBehind, Expr.itemsLevelBehind, level_printOn _ item,
        level_printItems _ items]
  | .object [] => by simp [Expr.printOn, Expr.levelBehind]
  | .object ((name, value) :: entries) => by
      simp [Expr.printOn, Expr.levelBehind, level_printOn _ value,
        level_printEntries _ entries]

theorem level_printHoles (page : Page) :
    ∀ (elements : List String) (holes : List Expr),
      (Expr.printHoles page elements holes).level =
        Expr.holesLevelBehind page.level elements holes
  | elements, [] => by
      simp [Expr.printHoles, Expr.holesLevelBehind, level_printElements]
  | [], hole :: holes => by simp [Expr.printHoles, Expr.holesLevelBehind]
  | element :: elements, hole :: holes => by
      simp [Expr.printHoles, Expr.holesLevelBehind, level_printOn _ hole,
        level_printHoles _ elements holes]

theorem level_printItems (page : Page) :
    ∀ items : List Expr,
      (Expr.printItems page items).level = Expr.itemsLevelBehind page.level items
  | [] => by simp [Expr.printItems, Expr.itemsLevelBehind]
  | item :: items => by
      simp [Expr.printItems, Expr.itemsLevelBehind, level_printOn _ item,
        level_printItems _ items]

theorem level_printEntries (page : Page) :
    ∀ entries : List (String × Expr),
      (Expr.printEntries page entries).level = Expr.entriesLevelBehind page.level entries
  | [] => by simp [Expr.printEntries, Expr.entriesLevelBehind]
  | (name, value) :: entries => by
      simp [Expr.printEntries, Expr.entriesLevelBehind, level_printOn _ value,
        level_printEntries _ entries]

end

/-! ## Expressions that find their levels -/

mutual

/-- How many objects with entries stand inside each other in an expression. -/
def Expr.nesting : Expr → Nat
  | .literal _ => 0
  | .function _ body => body.nesting
  | .template tag _ holes => max tag.nesting (Expr.itemsNesting holes)
  | .variable _ => 0
  | .array items => Expr.itemsNesting items
  | .object [] => 0
  | .object ((_, value) :: entries) => max value.nesting (Expr.entriesNesting entries) + 1

/-- How many objects stand inside each other in the items of an array or the holes of a
template. -/
def Expr.itemsNesting : List Expr → Nat
  | [] => 0
  | item :: items => max item.nesting (Expr.itemsNesting items)

/-- How many objects stand inside each other in the values of an object. -/
def Expr.entriesNesting : List (String × Expr) → Nat
  | [] => 0
  | (_, value) :: entries => max value.nesting (Expr.entriesNesting entries)

end

mutual

/-- The level behind an expression is what it was when there is a level for each of the
objects that stand inside each other. -/
theorem levelBehind_eq {level : UInt64} :
    ∀ expr : Expr, level.toNat + expr.nesting < UInt64.size → expr.levelBehind level = level
  | .literal _, _ => by rw [Expr.levelBehind]
  | .function _ body, hfits => by
      rw [Expr.nesting] at hfits
      rw [Expr.levelBehind, levelBehind_eq body hfits]
  | .template tag elements holes, hfits => by
      rw [Expr.nesting] at hfits
      rw [Expr.levelBehind, levelBehind_eq tag (by omega),
        holesLevelBehind_eq elements holes (by omega)]
  | .variable _, _ => by rw [Expr.levelBehind]
  | .array items, hfits => by
      rw [Expr.nesting] at hfits
      rw [Expr.levelBehind, itemsLevelBehind_eq items hfits]
  | .object [], _ => by rw [Expr.levelBehind]
  | .object ((_, value) :: entries), hfits => by
      rw [Expr.nesting] at hfits
      have hdeeper : (deeper level).toNat = level.toNat + 1 := toNat_deeper_of_lt (by omega)
      rw [Expr.levelBehind, levelBehind_eq value (by omega),
        entriesLevelBehind_eq entries (by omega), shallower_deeper (by omega)]

theorem holesLevelBehind_eq {level : UInt64} :
    ∀ (elements : List String) (holes : List Expr),
      level.toNat + Expr.itemsNesting holes < UInt64.size →
        Expr.holesLevelBehind level elements holes = level
  | _, [], _ => by rw [Expr.holesLevelBehind]
  | [], _ :: _, _ => by rw [Expr.holesLevelBehind]
  | _ :: elements, hole :: holes, hfits => by
      rw [Expr.itemsNesting] at hfits
      rw [Expr.holesLevelBehind, levelBehind_eq hole (by omega),
        holesLevelBehind_eq elements holes (by omega)]

theorem itemsLevelBehind_eq {level : UInt64} :
    ∀ items : List Expr, level.toNat + Expr.itemsNesting items < UInt64.size →
      Expr.itemsLevelBehind level items = level
  | [], _ => by rw [Expr.itemsLevelBehind]
  | item :: items, hfits => by
      rw [Expr.itemsNesting] at hfits
      rw [Expr.itemsLevelBehind, levelBehind_eq item (by omega),
        itemsLevelBehind_eq items (by omega)]

theorem entriesLevelBehind_eq {level : UInt64} :
    ∀ entries : List (String × Expr), level.toNat + Expr.entriesNesting entries < UInt64.size →
      Expr.entriesLevelBehind level entries = level
  | [], _ => by rw [Expr.entriesLevelBehind]
  | (_, value) :: entries, hfits => by
      rw [Expr.entriesNesting] at hfits
      rw [Expr.entriesLevelBehind, levelBehind_eq value (by omega),
        entriesLevelBehind_eq entries (by omega)]

end

section

variable {page : Page} {level : UInt64}

/-- Printing leaves the level of indentation as it was when there are enough levels. -/
theorem level_printOn_eq (hlevel : page.level = level) {expr : Expr}
    (hfits : level.toNat + expr.nesting < UInt64.size) : (expr.printOn page).level = level := by
  rw [level_printOn, hlevel, levelBehind_eq expr hfits]

theorem level_printEntries_eq (hlevel : page.level = level) {entries : List (String × Expr)}
    (hfits : level.toNat + Expr.entriesNesting entries < UInt64.size) :
    (Expr.printEntries page entries).level = level := by
  rw [level_printEntries, hlevel, entriesLevelBehind_eq entries hfits]

end

/-! ## Printing appends the source -/

/-- Printing went from one page to another by appending a text: if the current line is
empty nothing was printed at all. -/
structure Page.Prints (before after : Page) (text : List Char) : Prop where
  /-- The text is what is new on the page. -/
  flow : after.flow = before.flow ++ text
  /-- Only when nothing was printed can the current line be empty. -/
  same : after.current.parts = [] → after = before

namespace Page.Prints

theorem refl (page : Page) : Prints page page [] where
  flow := by simp
  same := fun _ => rfl

theorem trans {first second third : Page} {front back : List Char}
    (hfront : Prints first second front) (hback : Prints second third back) :
    Prints first third (front ++ back) where
  flow := by rw [hback.flow, hfront.flow, List.append_assoc]
  same := by
    intro hempty
    have hsecond := hback.same hempty
    rw [hsecond] at hempty ⊢
    exact hfront.same hempty

/-- A line with a part on it is never left for an empty one. -/
theorem parts {before after : Page} {text : List Char}
    (hprints : Prints before after text) (hparts : before.current.parts ≠ []) :
    after.current.parts ≠ [] := by
  intro hempty
  rw [hprints.same hempty] at hempty
  exact hparts hempty

/-- Printing one more part. -/
theorem print {before after : Page} {text : List Char}
    (hprints : Prints before after text) (part : String) :
    Prints before (after.print part) (text ++ part.toList) := by
  refine hprints.trans ⟨Page.flow_print _ _, ?_⟩
  intro hempty
  by_cases hpart : part = ""
  · simp [Page.print, hpart]
  · exact (Page.parts_print_ne_nil after hpart hempty).elim

end Page.Prints

theorem prints_printParams (page : Page) (params : List String) :
    Page.Prints page (printParams page params) (paramsSource params) := by
  unfold printParams paramsSource
  split
  · simpa using (Page.Prints.refl page).print _
  · simpa using
      (((Page.Prints.refl page).print "(").print (", ".intercalate params)).print ")"

theorem prints_printElements (page : Page) (elements : List String) :
    Page.Prints page (elements.foldl printElement page)
      (elements.flatMap fun element => escapeTemplate element.toList) := by
  induction elements generalizing page with
  | nil => exact Page.Prints.refl page
  | cons element elements ih =>
    have hfirst : Page.Prints page (printElement page element)
        (escapeTemplate element.toList) := by
      simpa [printElement] using (Page.Prints.refl page).print
        (String.ofList (escapeTemplate element.toList))
    simpa using hfirst.trans (ih (printElement page element))

/-- A quoted text is never empty: it has its quotes. -/
theorem quote_ne_empty (text : String) : Json.quote text ≠ "" := by
  intro hempty
  simpa [Json.quote] using congrArg String.toList hempty

/-- A comma ends a line, and the next part starts the line below it. -/
theorem prints_nextLine (page : Page) {part : String} (hpart : part ≠ "") :
    Page.Prints page ((page.print ",").newLine.print part)
      ([',', '\n'] ++ indentation page.level.toNat ++ part.toList) where
  flow := by
    rw [Page.flow_print, Page.flow_newLine (Page.parts_print_ne_nil page (by decide))]
    simp
  same := fun hempty => (Page.parts_print_ne_nil _ hpart hempty).elim

/-- The lines of an object stand between its braces, one level deeper. -/
theorem prints_braces {page inside : Page} {text : List Char}
    (hinside : Page.Prints (page.print "\x7b").newLine.indent inside text)
    (hparts : inside.current.parts ≠ []) :
    Page.Prints page (inside.newLine.outdent.print "\x7d")
      ('{' :: '\n' :: indentation (deeper page.level).toNat ++ text ++
        '\n' :: indentation (shallower inside.level).toNat ++ ['}']) where
  flow := by
    have hopen : (page.print "\x7b").current.parts ≠ [] :=
      Page.parts_print_ne_nil page (by decide)
    rw [Page.flow_print, Page.flow_newLine_outdent hparts, hinside.flow,
      Page.flow_newLine_indent hopen, Page.flow_print]
    simp
  same := fun hempty => (Page.parts_print_ne_nil _ (by decide) hempty).elim

mutual

/-- Printing an expression appends its source. -/
theorem prints_printOn (page : Page) :
    ∀ expr : Expr, Page.Prints page (expr.printOn page) (expr.source page.level)
  | .literal value => by
      simpa [Expr.printOn, Expr.source] using (Page.Prints.refl page).print value.text
  | .function params body => by
      have hhead := (prints_printParams page params).print " => "
      have hbody := prints_printOn ((printParams page params).print " => ") body
      simpa [Expr.printOn, Expr.source] using hhead.trans hbody
  | .template tag elements holes => by
      have htag := (prints_printOn page tag).print "\x60"
      have hholes := prints_printHoles ((tag.printOn page).print "\x60") elements holes
      simpa [Expr.printOn, Expr.source, level_printOn] using
        (htag.trans hholes).print "\x60"
  | .variable name => by
      simpa [Expr.printOn, Expr.source] using (Page.Prints.refl page).print name
  | .array [] => by
      simpa [Expr.printOn, Expr.source] using
        ((Page.Prints.refl page).print "[").print "]"
  | .array (item :: items) => by
      have hopen := (Page.Prints.refl page).print "["
      have hitem := prints_printOn (page.print "[") item
      have hitems := prints_printItems (item.printOn (page.print "[")) items
      simpa [Expr.printOn, Expr.source, level_printOn] using
        ((hopen.trans hitem).trans hitems).print "]"
  | .object [] => by
      simpa [Expr.printOn, Expr.source] using
        (Page.Prints.refl page).print "\x7b\x7d"
  | .object ((name, value) :: entries) => by
      let opened := (page.print "\x7b").newLine.indent
      have hname := ((Page.Prints.refl opened).print (Json.quote name)).print ": "
      have hvalue := prints_printOn ((opened.print (Json.quote name)).print ": ") value
      have hentries := prints_printEntries
        (value.printOn ((opened.print (Json.quote name)).print ": ")) entries
      have hparts := (hvalue.trans hentries).parts
        (Page.parts_print_ne_nil _ (by decide))
      have hlevel : opened.level = deeper page.level := by simp [opened]
      have hbraces := prints_braces ((hname.trans hvalue).trans hentries) hparts
      simpa [Expr.printOn, Expr.source, level_printOn, level_printEntries, hlevel]
        using hbraces

/-- Printing the holes of a template appends their source. -/
theorem prints_printHoles (page : Page) :
    ∀ (elements : List String) (holes : List Expr),
      Page.Prints page (Expr.printHoles page elements holes)
        (Expr.holesSource page.level elements holes)
  | elements, [] => by
      simpa [Expr.printHoles, Expr.holesSource] using prints_printElements page elements
  | [], hole :: holes => by
      simpa [Expr.printHoles, Expr.holesSource] using Page.Prints.refl page
  | element :: elements, hole :: holes => by
      let opened := (printElement page element).print "$\x7b"
      have hopen := ((Page.Prints.refl page).print
        (String.ofList (escapeTemplate element.toList))).print "$\x7b"
      have hhole := prints_printOn opened hole
      have hfirst := (hopen.trans hhole).print "\x7d"
      have hholes := prints_printHoles ((hole.printOn opened).print "\x7d") elements holes
      have hlevel : opened.level = page.level := by simp [opened]
      simpa [Expr.printHoles, Expr.holesSource, level_printOn, hlevel] using
        hfirst.trans hholes

/-- Printing more items appends their source. -/
theorem prints_printItems (page : Page) :
    ∀ items : List Expr, Page.Prints page (Expr.printItems page items)
      (Expr.itemsSource page.level items)
  | [] => by
      simpa [Expr.printItems, Expr.itemsSource] using Page.Prints.refl page
  | item :: items => by
      have hcomma := (Page.Prints.refl page).print ", "
      have hitem := prints_printOn (page.print ", ") item
      have hitems := prints_printItems (item.printOn (page.print ", ")) items
      simpa [Expr.printItems, Expr.itemsSource, level_printOn] using
        (hcomma.trans hitem).trans hitems

/-- Printing more entries appends their source. -/
theorem prints_printEntries (page : Page) :
    ∀ entries : List (String × Expr), Page.Prints page (Expr.printEntries page entries)
      (Expr.entriesSource page.level entries)
  | [] => by
      simpa [Expr.printEntries, Expr.entriesSource] using Page.Prints.refl page
  | (name, value) :: entries => by
      let line := ((page.print ",").newLine.print (Json.quote name)).print ": "
      have hname := (prints_nextLine page (quote_ne_empty name)).print ": "
      have hvalue := prints_printOn line value
      have hentries := prints_printEntries (value.printOn line) entries
      have hlevel : line.level = page.level := by simp [line]
      simpa [Expr.printEntries, Expr.entriesSource, level_printOn, hlevel] using
        (hname.trans hvalue).trans hentries

end

/-! ## Whole scripts -/

/-- A printed expression is its source at level zero. -/
theorem Expr.toList_text (expr : Expr) : expr.text.toList = expr.source 0 := by
  have hprints := prints_printOn (Page.start 0) expr
  have htext : expr.text.toList = (expr.printOn (Page.start 0)).flow := by
    by_cases hparts : (expr.printOn (Page.start 0)).current.parts = []
    · apply Page.toList_text_of_level_eq_zero
      rw [hprints.same hparts]
      rfl
    · exact Page.toList_text_of_parts_ne_nil hparts
  simpa [htext] using hprints.flow

/-- A printed module is the source of its export between the words of the
statement. -/
theorem Expr.toList_moduleText (expr : Expr) :
    expr.moduleText.toList =
      "export default ".toList ++ expr.source 0 ++ [';', '\n'] := by
  have hhead := (Page.Prints.refl (Page.start 0)).print "export default "
  have hvalue := prints_printOn ((Page.start 0).print "export default ") expr
  rw [Page.level_print, Page.level_start] at hvalue
  have hstatement := (hhead.trans hvalue).print ";"
  calc expr.moduleText.toList
      = ((expr.printOn ((Page.start 0).print "export default ")).print ";").flow ++
          ['\n'] := Page.toList_text_newLine (Page.parts_print_ne_nil _ (by decide))
    _ = "export default ".toList ++ expr.source 0 ++ [';', '\n'] := by
        rw [hstatement.flow]
        simp

end Phrasebook.Script

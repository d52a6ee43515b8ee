import Phrasebook.Proofs.Compile.RoundTrip
import Phrasebook.Proofs.Script.Depth
import Phrasebook.Proofs.Script.Lines

/-!
# Expressions at any indentation

Where an expression is printed decides on the white space in front of its lines and on
nothing else.  Indentation goes to lines alone: a string or a piece of template text
never spans two of them, so no indentation gets inside.  All this holds as long as
there are levels enough for the objects that stand inside each other: levels are
machine words, and one more than the highest is none.

Main results:

- Theorem `printOn_deepen`: an expression is printed on a page with more levels as on
  the page itself, with more levels.
- Theorem `plain_printOn`: only names can break the lines that are printed.
- Theorem `ofSource_textAt`: what an expression is read as does not depend on its
  indentation.
- Theorem `layout_compositional`: all of this for printed expressions and for inputs.
-/

namespace Phrasebook.Script

open Text

/-- The text of an expression that is printed at some levels of indentation. -/
def Expr.textAt (levels : UInt64) (expr : Expr) : String :=
  (expr.printOn (Page.start levels)).text

/-! ## Names -/

mutual

/-- The names of the variables and parameters of an expression, at any depth. -/
def Expr.names : Expr → List String
  | .literal _ => []
  | .function params body => params ++ body.names
  | .template tag _ holes => tag.names ++ Expr.itemsNames holes
  | .variable name => [name]
  | .array items => Expr.itemsNames items
  | .object entries => Expr.entriesNames entries

/-- The names in the items of an array or the holes of a template. -/
def Expr.itemsNames : List Expr → List String
  | [] => []
  | item :: items => item.names ++ Expr.itemsNames items

/-- The names in the values of an object. -/
def Expr.entriesNames : List (String × Expr) → List String
  | [] => []
  | (_, value) :: entries => value.names ++ Expr.entriesNames entries

end

/-! ## Printing further to the right -/

section

variable {levels : UInt64}

theorem printParams_deepen (page : Page) (params : List String) :
    printParams (page.deepen levels) params = (printParams page params).deepen levels := by
  unfold printParams
  split <;> simp

theorem printElements_deepen (page : Page) (elements : List String) :
    elements.foldl printElement (page.deepen levels) =
      (elements.foldl printElement page).deepen levels := by
  induction elements generalizing page with
  | nil => rfl
  | cons element elements ih => simp [printElement, ih]

mutual

/-- Printing commutes with adding levels to a page that has levels enough for both. -/
theorem printOn_deepen {page : Page} {level : UInt64} (hlevel : page.level = level) :
    ∀ expr : Expr, level.toNat + levels.toNat + expr.nesting < UInt64.size →
      expr.printOn (page.deepen levels) = (expr.printOn page).deepen levels
  | .literal value, _ => by simp [Expr.printOn]
  | .function params body, hfits => by
      rw [Expr.nesting] at hfits
      have hhead : ((printParams page params).print " => ").level = level := by
        simpa using hlevel
      simp only [Expr.printOn, printParams_deepen, Page.deepen_print]
      rw [printOn_deepen hhead body hfits]
  | .template tag elements holes, hfits => by
      rw [Expr.nesting] at hfits
      have htag : ((tag.printOn page).print "\x60").level = level := by
        rw [Page.level_print, level_printOn_eq hlevel (by omega)]
      simp only [Expr.printOn, Page.deepen_print, printOn_deepen hlevel tag (by omega),
        printHoles_deepen htag elements holes (by omega)]
  | .variable name, _ => by simp [Expr.printOn]
  | .array [], _ => by simp [Expr.printOn]
  | .array (item :: items), hfits => by
      rw [Expr.nesting, Expr.itemsNesting] at hfits
      have hopen : (page.print "[").level = level := by simpa using hlevel
      have hitem := level_printOn_eq hopen (show level.toNat + item.nesting < _ by omega)
      simp only [Expr.printOn, Page.deepen_print, printOn_deepen hopen item (by omega),
        printItems_deepen hitem items (by omega)]
  | .object [], _ => by simp [Expr.printOn]
  | .object ((name, value) :: entries), hfits => by
      rw [Expr.nesting] at hfits
      have hdeeper : (deeper level).toNat = level.toNat + 1 := toNat_deeper_of_lt (by omega)
      have hname : (((page.print "\x7b").newLine.indent.print (Json.quote name)).print
          ": ").level = deeper level := by
        simp [hlevel]
      have hvalue := level_printOn_eq hname
        (show (deeper level).toNat + value.nesting < _ by omega)
      have hentries := level_printEntries_eq hvalue
        (show (deeper level).toNat + Expr.entriesNesting entries < _ by omega)
      simp only [Expr.printOn, Page.deepen_print, Page.deepen_newLine, Page.deepen_indent,
        printOn_deepen hname value (by omega), printEntries_deepen hvalue entries (by omega)]
      rw [Page.deepen_outdent (by rw [Page.level_newLine, hentries]; omega)
        (by rw [Page.level_newLine, hentries]; omega), Page.deepen_print]

theorem printHoles_deepen {page : Page} {level : UInt64} (hlevel : page.level = level) :
    ∀ (elements : List String) (holes : List Expr),
      level.toNat + levels.toNat + Expr.itemsNesting holes < UInt64.size →
        Expr.printHoles (page.deepen levels) elements holes =
          (Expr.printHoles page elements holes).deepen levels
  | elements, [], _ => by simp [Expr.printHoles, printElements_deepen]
  | [], hole :: holes, _ => by simp [Expr.printHoles]
  | element :: elements, hole :: holes, hfits => by
      rw [Expr.itemsNesting] at hfits
      have hopen : ((printElement page element).print "$\x7b").level = level := by
        simpa using hlevel
      have hhole : ((hole.printOn ((printElement page element).print "$\x7b")).print
          "\x7d").level = level := by
        rw [Page.level_print, level_printOn_eq hopen (by omega)]
      have helement : printElement (page.deepen levels) element =
          (printElement page element).deepen levels :=
        Page.deepen_print _ _ _
      simp only [Expr.printHoles, helement, Page.deepen_print,
        printOn_deepen hopen hole (by omega), printHoles_deepen hhole elements holes (by omega)]

theorem printItems_deepen {page : Page} {level : UInt64} (hlevel : page.level = level) :
    ∀ items : List Expr, level.toNat + levels.toNat + Expr.itemsNesting items < UInt64.size →
      Expr.printItems (page.deepen levels) items = (Expr.printItems page items).deepen levels
  | [], _ => by simp [Expr.printItems]
  | item :: items, hfits => by
      rw [Expr.itemsNesting] at hfits
      have hcomma : (page.print ", ").level = level := by simpa using hlevel
      have hitem := level_printOn_eq hcomma (show level.toNat + item.nesting < _ by omega)
      simp only [Expr.printItems, Page.deepen_print, printOn_deepen hcomma item (by omega),
        printItems_deepen hitem items (by omega)]

theorem printEntries_deepen {page : Page} {level : UInt64} (hlevel : page.level = level) :
    ∀ entries : List (String × Expr),
      level.toNat + levels.toNat + Expr.entriesNesting entries < UInt64.size →
        Expr.printEntries (page.deepen levels) entries =
          (Expr.printEntries page entries).deepen levels
  | [], _ => by simp [Expr.printEntries]
  | (name, value) :: entries, hfits => by
      rw [Expr.entriesNesting] at hfits
      have hname : (((page.print ",").newLine.print (Json.quote name)).print ": ").level =
          level := by
        simpa using hlevel
      have hvalue := level_printOn_eq hname (show level.toNat + value.nesting < _ by omega)
      simp only [Expr.printEntries, Page.deepen_print, Page.deepen_newLine,
        printOn_deepen hname value (by omega), printEntries_deepen hvalue entries (by omega)]

end

end

/-! ## Only names can break a line -/

section

variable {bound : Nat}

theorem plain_printParams {page : Page} (hpage : page.Plain bound) {params : List String}
    (hparams : ∀ param ∈ params, Unbroken param) :
    (printParams page params).Plain bound := by
  unfold printParams
  split
  · exact hpage.print _ (hparams _ List.mem_cons_self)
  · have hlist := unbroken_intercalate ", " (by decide) hparams
    exact ((hpage.print "(" (by decide)).print _ hlist).print ")" (by decide)

theorem plain_printElements {page : Page} (hpage : page.Plain bound)
    (elements : List String) : (elements.foldl printElement page).Plain bound := by
  induction elements generalizing page with
  | nil => exact hpage
  | cons element elements ih => exact ih (hpage.print _ (unbroken_escapeTemplate element))

mutual

/-- A printed expression leaves a page plain when no name in it breaks a line and its
objects find their levels within the bound. -/
theorem plain_printOn (hbound : bound < UInt64.size) {page : Page} (hpage : page.Plain bound)
    {level : UInt64} (hlevel : page.level = level) :
    ∀ expr : Expr, (∀ name ∈ expr.names, Unbroken name) →
      level.toNat + expr.nesting ≤ bound → (expr.printOn page).Plain bound
  | .literal value, _, _ => by
      simpa only [Expr.printOn] using hpage.print _ (unbroken_text value)
  | .function params body, hnames, hfits => by
      rw [Expr.nesting] at hfits
      simp only [Expr.names, List.forall_mem_append] at hnames
      have hhead := (plain_printParams hpage hnames.1).print " => " (by decide)
      simpa only [Expr.printOn] using
        plain_printOn hbound hhead (by simpa using hlevel) body hnames.2 hfits
  | .template tag elements holes, hnames, hfits => by
      rw [Expr.nesting] at hfits
      simp only [Expr.names, List.forall_mem_append] at hnames
      have htag := (plain_printOn hbound hpage hlevel tag hnames.1 (by omega)).print "\x60"
        (by decide)
      have hbehind : ((tag.printOn page).print "\x60").level = level := by
        rw [Page.level_print, level_printOn_eq hlevel (by omega)]
      have hholes := plain_printHoles hbound htag hbehind elements holes hnames.2 (by omega)
      simpa only [Expr.printOn] using hholes.print "\x60" (by decide)
  | .variable name, hnames, _ => by
      simpa only [Expr.printOn] using hpage.print _ (hnames name (by simp [Expr.names]))
  | .array [], _, _ => by
      simpa only [Expr.printOn] using
        (hpage.print "[" (by decide)).print "]" (by decide)
  | .array (item :: items), hnames, hfits => by
      rw [Expr.nesting, Expr.itemsNesting] at hfits
      simp only [Expr.names, Expr.itemsNames, List.forall_mem_append] at hnames
      have hopened : (page.print "[").level = level := by simpa using hlevel
      have hopen := hpage.print "[" (by decide)
      have hitem := plain_printOn hbound hopen hopened item hnames.1 (by omega)
      have hbehind := level_printOn_eq hopened (show level.toNat + item.nesting < _ by omega)
      have hitems := plain_printItems hbound hitem hbehind items hnames.2 (by omega)
      simpa only [Expr.printOn] using hitems.print "]" (by decide)
  | .object [], _, _ => by
      simpa only [Expr.printOn] using hpage.print "\x7b\x7d" (by decide)
  | .object ((name, value) :: entries), hnames, hfits => by
      rw [Expr.nesting] at hfits
      simp only [Expr.names, Expr.entriesNames, List.forall_mem_append] at hnames
      have hdeeper : (deeper level).toNat = level.toNat + 1 := toNat_deeper_of_lt (by omega)
      have hopened : (page.print "\x7b").newLine.level = level := by simpa using hlevel
      have hopen := (hpage.print "\x7b" (by decide)).newLine.indent (by rw [hopened]; omega)
      have hname := (hopen.print _ (unbroken_quote name)).print ": " (by decide)
      have hinside : (((page.print "\x7b").newLine.indent.print (Json.quote name)).print
          ": ").level = deeper level := by
        simp [hlevel]
      have hvalue := plain_printOn hbound hname hinside value hnames.1 (by omega)
      have hbehind := level_printOn_eq hinside
        (show (deeper level).toNat + value.nesting < _ by omega)
      have hentries := plain_printEntries hbound hvalue hbehind entries hnames.2 (by omega)
      simpa only [Expr.printOn] using
        hentries.newLine.outdent.print "\x7d" (by decide)

theorem plain_printHoles (hbound : bound < UInt64.size) {page : Page} (hpage : page.Plain bound)
    {level : UInt64} (hlevel : page.level = level) :
    ∀ (elements : List String) (holes : List Expr),
      (∀ name ∈ Expr.itemsNames holes, Unbroken name) →
        level.toNat + Expr.itemsNesting holes ≤ bound →
          (Expr.printHoles page elements holes).Plain bound
  | elements, [], _, _ => by
      simpa only [Expr.printHoles] using plain_printElements hpage elements
  | [], hole :: holes, _, _ => by simpa only [Expr.printHoles] using hpage
  | element :: elements, hole :: holes, hnames, hfits => by
      rw [Expr.itemsNesting] at hfits
      simp only [Expr.itemsNames, List.forall_mem_append] at hnames
      have hopen : ((printElement page element).print "$\x7b").Plain bound :=
        (hpage.print _ (unbroken_escapeTemplate element)).print "$\x7b" (by decide)
      have hopened : ((printElement page element).print "$\x7b").level = level := by
        simpa using hlevel
      have hhole := (plain_printOn hbound hopen hopened hole hnames.1 (by omega)).print "\x7d"
        (by decide)
      have hbehind : ((hole.printOn ((printElement page element).print "$\x7b")).print
          "\x7d").level = level := by
        rw [Page.level_print, level_printOn_eq hopened (by omega)]
      simpa only [Expr.printHoles] using
        plain_printHoles hbound hhole hbehind elements holes hnames.2 (by omega)

theorem plain_printItems (hbound : bound < UInt64.size) {page : Page} (hpage : page.Plain bound)
    {level : UInt64} (hlevel : page.level = level) :
    ∀ items : List Expr, (∀ name ∈ Expr.itemsNames items, Unbroken name) →
      level.toNat + Expr.itemsNesting items ≤ bound →
        (Expr.printItems page items).Plain bound
  | [], _, _ => by simpa only [Expr.printItems] using hpage
  | item :: items, hnames, hfits => by
      rw [Expr.itemsNesting] at hfits
      simp only [Expr.itemsNames, List.forall_mem_append] at hnames
      have hnext : (page.print ", ").level = level := by simpa using hlevel
      have hcomma := hpage.print ", " (by decide)
      have hitem := plain_printOn hbound hcomma hnext item hnames.1 (by omega)
      have hbehind := level_printOn_eq hnext (show level.toNat + item.nesting < _ by omega)
      simpa only [Expr.printItems] using
        plain_printItems hbound hitem hbehind items hnames.2 (by omega)

theorem plain_printEntries (hbound : bound < UInt64.size) {page : Page}
    (hpage : page.Plain bound) {level : UInt64} (hlevel : page.level = level) :
    ∀ entries : List (String × Expr), (∀ name ∈ Expr.entriesNames entries, Unbroken name) →
      level.toNat + Expr.entriesNesting entries ≤ bound →
        (Expr.printEntries page entries).Plain bound
  | [], _, _ => by simpa only [Expr.printEntries] using hpage
  | (name, value) :: entries, hnames, hfits => by
      rw [Expr.entriesNesting] at hfits
      simp only [Expr.entriesNames, List.forall_mem_append] at hnames
      have hnext : (((page.print ",").newLine.print (Json.quote name)).print ": ").level =
          level := by
        simpa using hlevel
      have hline := (hpage.print "," (by decide)).newLine
      have hname := (hline.print _ (unbroken_quote name)).print ": " (by decide)
      have hvalue := plain_printOn hbound hname hnext value hnames.1 (by omega)
      have hbehind := level_printOn_eq hnext (show level.toNat + value.nesting < _ by omega)
      simpa only [Expr.printEntries] using
        plain_printEntries hbound hvalue hbehind entries hnames.2 (by omega)

end

end

section

variable {expr : Expr} {levels : UInt64}

/-- The text at some levels of indentation is the text at none with its lines indented. -/
theorem Expr.textAt_eq_indentLines (hnames : ∀ name ∈ expr.names, Unbroken name)
    (hfits : levels.toNat + expr.nesting < UInt64.size) :
    expr.textAt levels = indentLines levels.toNat (expr.textAt 0) := by
  have hplain : (expr.printOn (Page.start 0)).Plain expr.nesting :=
    plain_printOn (by omega) (Page.plain_start (by simp)) rfl expr hnames (by simp)
  have hdeepen : expr.printOn ((Page.start 0).deepen levels) =
      (expr.printOn (Page.start 0)).deepen levels :=
    printOn_deepen rfl expr (by simpa using hfits)
  rw [textAt, Page.start_eq_deepen, hdeepen, Page.text_deepen hplain (by omega), textAt]

/-- No line is indented by more levels than the first one and the objects around it. -/
theorem toNat_level_le (hnames : ∀ name ∈ expr.names, Unbroken name)
    (hfits : levels.toNat + expr.nesting < UInt64.size) :
    ∀ line ∈ (expr.printOn (Page.start levels)).lines,
      line.level.toNat ≤ levels.toNat + expr.nesting := by
  have hplain : (expr.printOn (Page.start levels)).Plain (levels.toNat + expr.nesting) :=
    plain_printOn hfits (Page.plain_start (by omega)) rfl expr hnames (by simp)
  exact fun line hline => (hplain.lines line hline).level

end

/-! ## Reading at any indentation -/

section

variable {expr : Expr} {tree : Tree Phrase}

theorem isBlank_of_mem_indentation {level : Nat} {c : Char} (hc : c ∈ indentation level) :
    isBlank c = true := by
  rw [List.eq_of_mem_replicate hc]
  decide

/-- The text of an expression that something is read from is its source behind the
indentation of its first line. -/
theorem toList_textAt (hexpr : Denotes expr tree) (levels : UInt64) :
    (expr.textAt levels).toList = indentation levels.toNat ++ expr.source levels := by
  have hprints := prints_printOn (Page.start levels) expr
  have hparts : (expr.printOn (Page.start levels)).current.parts ≠ [] := by
    intro hempty
    obtain ⟨c, s, hsource, -⟩ := exists_head_source hexpr levels
    have hflow := hprints.flow
    rw [hprints.same hempty, Page.level_start, hsource] at hflow
    simp at hflow
  rw [Expr.textAt, Page.toList_text_of_parts_ne_nil hparts, hprints.flow]
  simp

/-- Indentation does not change what an expression is read as. -/
theorem ofSource_textAt (hexpr : Denotes expr tree) (levels : UInt64) :
    Tree.ofSource (expr.textAt levels) = .ok tree := by
  obtain ⟨c, s, hsource, hvisible, -, -, hc⟩ := exists_head_source hexpr levels
  have htrim : trimStart (indentation levels.toNat ++ expr.source levels) = expr.source levels := by
    rw [trimStart_append_of_blank fun _ => isBlank_of_mem_indentation, hsource,
      trimStart_cons_of_not_isBlank hvisible]
  have hvalue : readTree (expr.source levels) = .ok (tree, []) := by
    have hread := readValue_source hexpr levels (expr.source levels).length [] le_rfl
      fun _ => separate_nil
    rwa [List.append_nil] at hread
  have hheader := readHeader_of_trimStart (htrim.trans hsource) hc
  rw [ofSource_eq_ok_iff, toList_textAt hexpr, readSource_eq, hheader]
  show (readTree (indentation levels.toNat ++ expr.source levels) >>= _) = _
  rw [← readTree_trimStart, htrim, hvalue]
  rfl

end

end Phrasebook.Script

namespace Phrasebook

open Script

/-- Objects in a list in an object, with line breaks in a string and in a template. -/
def shelvedExpr : Expr :=
  .object [("shelves", .array [.object [("first", .literal (.string "a\nb"))],
    .object [("second", .function ["i"]
      (.template (.variable "i") ["c\nd", ""] [.literal (.string "name")]))]])]

/-- An input whose source has an object on a line that a list has begun. -/
def shelvedInput : Json :=
  .object [("shelves", .array [.object [("first", .string "a\nb")],
    .object [("second", .string "c\nd{name}"), ("third", .number (.integer ⟨-5, by decide⟩))]])]

/-- An object with one entry. -/
def pairExpr : Expr :=
  .object [("a", .literal .null)]

/-- A list goes on behind the object in it on the line of its closing brace. -/
example : (Expr.array [.object [("a", .literal .null)], .variable "x"]).textAt 1 =
    "  [\x7b\n    \"a\": null\n  \x7d, x]" := by
  decide

end Phrasebook

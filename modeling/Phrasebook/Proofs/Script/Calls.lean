import Mathlib.Data.List.Forall2
import Phrasebook.Proofs.Script.Layout

/-!
# Runs of calls on a page

A page is only ever changed by calls: parts are printed, lines are ended, and the
level of indentation goes up and down.  A change of the level reaches back to the
current line as long as nothing is printed on it, and an empty part is nothing.  What a
page looks like in the end can be told from the calls alone, with the levels as numbers
modulo `UInt64.size`.

Main results:

- Definition `strokeLines`: what calls print, line by line, with the level that was in
  force when it was printed.
- Theorem `Page.Bears.call`: a call adds its part to the current line, and ends the
  line if it ends lines.
- Theorem `Page.text_run`: the lines, the level and the text of a page after any calls.
-/

namespace Phrasebook.Script

/-! ## Calls -/

/-- A call on a page. -/
inductive Call where
  /-- Print a part, and go on to a new line or not. -/
  | print (part : String) (endsLine : Bool)
  /-- Print a part and go on to a new line. -/
  | printLine (part : String)
  /-- Indent by one more level. -/
  | indent
  /-- Indent by one level less, if there is one. -/
  | outdent

namespace Call

/-- The part that a call prints; a change of indentation prints nothing. -/
def part : Call → String
  | .print part _ | .printLine part => part
  | .indent | .outdent => ""

/-- Whether a call goes on to a new line. -/
def endsLine : Call → Bool
  | .print _ endsLine => endsLine
  | .printLine _ => true
  | .indent | .outdent => false

/-- The level of indentation behind a call.  Above, levels are counted modulo `UInt64.size`;
below, they end at zero. -/
def levelAfter (level : Nat) : Call → Nat
  | .indent => (level + 1) % UInt64.size
  | .outdent => level - 1
  | .print _ _ | .printLine _ => level

end Call

/-- The page behind a call. -/
def Page.call (page : Page) : Call → Page
  | .print part false => page.print part
  | .print part true | .printLine part => (page.print part).newLine
  | .indent => page.indent
  | .outdent => page.outdent

/-- The page behind some calls. -/
def Page.run (page : Page) (calls : List Call) : Page :=
  calls.foldl Page.call page

/-! ## What calls print -/

/-- A part and the level of indentation in force when it was printed. -/
structure Stroke where
  part : String
  level : Nat

/-- What is printed of a part at a level.  Of an empty part that is nothing. -/
def strokesOf (level : Nat) (part : String) : List Stroke :=
  if part = "" then [] else [⟨part, level⟩]

/-- What calls print from a level on, line by line. -/
def strokeLines (level : Nat) : List Call → List (List Stroke)
  | [] => [[]]
  | call :: calls =>
      let later := strokeLines (call.levelAfter level) calls
      if call.endsLine then strokesOf level call.part :: later
      else later.modifyHead (strokesOf level call.part ++ ·)

/-- The text of a line: its parts behind two spaces for each level that was in force
when the first of them was printed, and nothing for a line without parts. -/
def strokesText : List Stroke → String
  | [] => ""
  | first :: others =>
      String.ofList (List.replicate (2 * first.level) ' ') ++
        String.join ((first :: others).map Stroke.part)

/-! ## One call -/

/-- A line holds what was printed on it, at the level of the first part. -/
structure Line.Bears (line : Line) (strokes : List Stroke) : Prop where
  parts : line.parts = strokes.map Stroke.part
  level : ∀ first ∈ strokes.head?, line.level.toNat = first.level

/-- The text of a line is that of what was printed on it. -/
theorem Line.Bears.text {line : Line} {strokes : List Stroke} (hline : line.Bears strokes) :
    line.text = strokesText strokes := by
  cases strokes with
  | nil => simp [Line.text, hline.parts, strokesText]
  | cons first others =>
    have hlevel := hline.level first rfl
    simp [Line.text, hline.parts, strokesText, hlevel]

/-- A page holds the lines that were finished and what was printed on the current one. -/
structure Page.Bears (page : Page) (finished : List (List Stroke)) (current : List Stroke) :
    Prop where
  finished : List.Forall₂ Line.Bears page.done finished
  current : page.current.Bears current
  /-- The current line gets its level with its first part, so it has to follow the page
  until then. -/
  settled : page.Settled

namespace Page

theorem bears_start (level : UInt64) : (start level).Bears [] [] where
  finished := List.Forall₂.nil
  current := ⟨rfl, by simp⟩
  settled := settled_start level

namespace Bears

variable {page : Page} {finished : List (List Stroke)} {current : List Stroke}

/-- The lines of a page are the finished ones and the current one. -/
theorem lines (hpage : page.Bears finished current) :
    List.Forall₂ Line.Bears page.lines (finished ++ [current]) :=
  List.rel_append hpage.finished (List.Forall₂.cons hpage.current List.Forall₂.nil)

/-- A part is printed at the level of the page. -/
theorem print (hpage : page.Bears finished current) (part : String) :
    (page.print part).Bears finished (current ++ strokesOf page.level.toNat part) := by
  by_cases hpart : part = ""
  · simpa [Page.print, strokesOf, hpart] using hpage
  · have hsettled := settled_print hpage.settled part
    rw [Page.print, if_neg hpart] at hsettled ⊢
    rw [strokesOf, if_neg hpart]
    refine ⟨hpage.finished, ⟨by simp [hpage.current.parts], ?_⟩, hsettled⟩
    intro first hfirst
    cases current with
    | nil =>
      have hempty : page.lineIsEmpty = true := by
        simp [lineIsEmpty, hpage.current.parts]
      rw [List.nil_append, List.head?_cons, Option.mem_some_iff] at hfirst
      rw [← hfirst]
      exact congrArg UInt64.toNat (hpage.settled hempty)
    | cons _ _ => exact hpage.current.level first hfirst

theorem newLine (hpage : page.Bears finished current) :
    page.newLine.Bears (finished ++ [current]) [] where
  finished := hpage.lines
  current := ⟨rfl, by simp⟩
  settled := settled_newLine page

/-- A change of the level shows on no line that has a part. -/
theorem setLevel (hpage : page.Bears finished current) (level : UInt64) :
    (page.setLevel level).Bears finished current where
  finished := by
    unfold Page.setLevel
    split <;> exact hpage.finished
  current := by
    unfold Page.setLevel
    split
    · rename_i hempty
      have hcurrent : current = [] := by
        simpa [lineIsEmpty, hpage.current.parts] using hempty
      exact ⟨hpage.current.parts, by simp [hcurrent]⟩
    · exact hpage.current
  settled := settled_setLevel page level

/-- A call that ends a line finishes it with the part of the call. -/
theorem call_of_endsLine (hpage : page.Bears finished current) {call : Call}
    (hends : call.endsLine = true) :
    (page.call call).Bears (finished ++ [current ++ strokesOf page.level.toNat call.part])
      [] := by
  cases call with
  | print part endsLine =>
    obtain rfl : endsLine = true := hends
    exact (hpage.print part).newLine
  | printLine part => exact (hpage.print part).newLine
  | indent => simp [Call.endsLine] at hends
  | outdent => simp [Call.endsLine] at hends

/-- Any other call adds its part to the line, if it has one. -/
theorem call_of_not_endsLine (hpage : page.Bears finished current) {call : Call}
    (hends : call.endsLine = false) :
    (page.call call).Bears finished (current ++ strokesOf page.level.toNat call.part) := by
  cases call with
  | print part endsLine =>
    obtain rfl : endsLine = false := hends
    exact hpage.print part
  | printLine part => simp [Call.endsLine] at hends
  | indent =>
    have hindent : page.indent.Bears finished current := hpage.setLevel (deeper page.level)
    simpa [strokesOf, Call.part, Page.call] using hindent
  | outdent =>
    have houtdent : page.outdent.Bears finished current :=
      hpage.setLevel (shallower page.level)
    simpa [strokesOf, Call.part, Page.call] using houtdent

end Bears

theorem level_call (page : Page) (call : Call) :
    (page.call call).level.toNat = call.levelAfter page.level.toNat := by
  cases call with
  | print part endsLine => cases endsLine <;> simp [Page.call, Call.levelAfter]
  | printLine part => simp [Page.call, Call.levelAfter]
  | indent => simp only [Page.call, level_indent, toNat_deeper, Call.levelAfter]
  | outdent => simp only [Page.call, level_outdent, toNat_shallower, Call.levelAfter]

/-! ## Runs -/

theorem level_run (page : Page) (calls : List Call) :
    (page.run calls).level.toNat = calls.foldl Call.levelAfter page.level.toNat := by
  induction calls generalizing page with
  | nil => rfl
  | cons call calls ih => rw [run, List.foldl_cons, List.foldl_cons, ← level_call, ← ih, run]

private theorem modifyHead_nil_append (lines : List (List Stroke)) :
    lines.modifyHead ([] ++ ·) = lines := by
  cases lines <;> rfl

/-- Calls go on with the current line and leave the finished ones as they are. -/
theorem Bears.run {page : Page} {finished : List (List Stroke)} {current : List Stroke}
    (hpage : page.Bears finished current) (calls : List Call) :
    (page.run calls).Settled ∧
      List.Forall₂ Line.Bears (page.run calls).lines
        (finished ++ (strokeLines page.level.toNat calls).modifyHead (current ++ ·)) := by
  induction calls generalizing page finished current with
  | nil => exact ⟨hpage.settled, by simpa [strokeLines, Page.run] using hpage.lines⟩
  | cons call calls ih =>
    rw [Page.run, List.foldl_cons, ← Page.run, strokeLines]
    cases hends : call.endsLine with
    | true =>
      have hrun := ih (hpage.call_of_endsLine hends)
      rw [modifyHead_nil_append, level_call] at hrun
      simpa using hrun
    | false =>
      have hrun := ih (hpage.call_of_not_endsLine hends)
      rw [level_call] at hrun
      simpa [Function.comp_def] using hrun

end Page

/-- What can be told of each line from what was printed on it can be told of all lines. -/
theorem map_eq_map_of_bears {α : Type} {lines : List Line} {written : List (List Stroke)}
    (hlines : List.Forall₂ Line.Bears lines written) {ofLine : Line → α}
    {ofStrokes : List Stroke → α}
    (hline : ∀ line strokes, line.Bears strokes → ofLine line = ofStrokes strokes) :
    lines.map ofLine = written.map ofStrokes := by
  rw [← List.forall₂_eq_eq_eq, List.forall₂_map_left_iff, List.forall₂_map_right_iff]
  exact hlines.imp hline

/-- There is one line more than lines were ended. -/
theorem length_strokeLines (level : Nat) (calls : List Call) :
    (strokeLines level calls).length = calls.countP Call.endsLine + 1 := by
  induction calls generalizing level with
  | nil => rfl
  | cons call calls ih =>
    cases hends : call.endsLine <;> simp [strokeLines, hends, ih]

/-- A level that changes before anything is printed on a line shows on that line, and one
that changes behind a part does not. -/
example : ((Page.start 1).run [.printLine "", .outdent, .outdent, .print "" false, .indent,
    .print "a" false, .indent, .printLine "b", .printLine "c"]).text = "\n  ab\n    c\n" := by
  decide

/-- One level more than the highest is none. -/
example : ((Page.start 18446744073709551615).run [.indent, .print "a" false]).text = "a" := by
  decide

end Phrasebook.Script

import Phrasebook.Proofs.Render.Segments
import Phrasebook.Proofs.Script.Lines
import Phrasebook.Proofs.Script.Templates

/-!
# Segments in template literals

A segment is escaped without a look at what it will stand next to, and the reader goes
through a template literal without a look at where one segment was joined to a hole.
Still a segment is found again wherever it is put: nothing in it that is not escaped can
end the literal, open a hole or break a line, and its escapes mean the same to the
reader here and in scripts.

Main results:

- Definition `marks`: the characters of template text, alone or behind a backslash.
- Theorem `escapeTemplate_cons_cases`: the ways in which a character is written.
- Theorem `scanSegment_escapeTemplate`: scripts take escaped text for the segment that
  was escaped.
- Theorem `readTemplateBody_stepsSource`: segments with a hole behind each are passed,
  whatever they end in.
- Theorem `escapeTemplate_safe`: all of this for a segment between other segments.
-/

namespace Phrasebook.Script

open Text

/-! ## Characters alone and behind a backslash -/

/-- A character of template text. -/
inductive Mark where
  /-- The character stands alone. -/
  | plain (c : Char)
  /-- The character stands behind the backslash that escapes it. -/
  | escaped (c : Char)
  deriving DecidableEq

/-- The characters of template text, from its front on.  A backslash with nothing behind
it stands alone. -/
def marks : List Char → List Mark
  | '\\' :: c :: s => .escaped c :: marks s
  | c :: s => .plain c :: marks s
  | [] => []

theorem marks_escaped (c : Char) (s : List Char) :
    marks ('\\' :: c :: s) = .escaped c :: marks s := by
  rw [marks]

theorem marks_plain {c : Char} (hc : c ≠ '\\') (s : List Char) :
    marks (c :: s) = .plain c :: marks s := by
  rw [marks]
  rintro d rest rfl
  exact (hc rfl).elim

/-! ## Escapes in scripts -/

/-- What scripts take a backslash and a character for, where these two are a whole
escape.  Digits and the letters `x` and `u` begin longer escapes, and a backslash before
a line break stands for nothing. -/
def singleEscape? (c : Char) : Option Char :=
  if c = 'b' then some '\x08'
  else if c = 't' then some '\t'
  else if c = 'n' then some '\n'
  else if c = 'v' then some '\x0b'
  else if c = 'f' then some '\x0c'
  else if c = 'r' then some '\r'
  else if c.isDigit ∨ c ∈ ['x', 'u', '\n', '\r', '\u2028', '\u2029'] then none
  else some c

/-- The segment that scripts find at the front of a template literal, and what stands
behind it: the backtick or the hole that ends the segment.  A carriage return counts as
a line feed, alone or with the line feed behind it. -/
def scanSegment : List Char → Option (List Char × List Char)
  | [] => none
  | '\x60' :: s => some ([], '\x60' :: s)
  | '$' :: '{' :: s => some ([], '$' :: '{' :: s)
  | ['\\'] => none
  | '\\' :: c :: s =>
      (singleEscape? c).bind fun meant =>
        (scanSegment s).map fun read => (meant :: read.1, read.2)
  | '\r' :: '\n' :: s => (scanSegment s).map fun read => ('\n' :: read.1, read.2)
  | '\r' :: s => (scanSegment s).map fun read => ('\n' :: read.1, read.2)
  | c :: s => (scanSegment s).map fun read => (c :: read.1, read.2)

theorem scanSegment_escape {c meant : Char} (hmeant : singleEscape? c = some meant)
    (s : List Char) :
    scanSegment ('\\' :: c :: s) =
      (scanSegment s).map fun read => (meant :: read.1, read.2) := by
  rw [scanSegment, hmeant, Option.bind_some]

theorem scanSegment_plain {c : Char} {s : List Char} (hbacktick : c ≠ '\x60')
    (hbackslash : c ≠ '\\') (hreturn : c ≠ '\r')
    (hdollar : ¬(c = '$' ∧ s.head? = some '{')) :
    scanSegment (c :: s) = (scanSegment s).map fun read => (c :: read.1, read.2) := by
  rw [scanSegment]
  · exact hbacktick
  · rintro rest rfl rfl
    exact hdollar ⟨rfl, rfl⟩
  · rintro rfl
    exact (hbackslash rfl).elim
  · rintro d rest rfl
    exact (hbackslash rfl).elim
  · rintro rest rfl
    exact (hreturn rfl).elim
  · exact hreturn

/-! ## How a character is written -/

/-- The escapes of template text, each with the character it is for. -/
def templateEscapes : List (Char × Char) :=
  [('\\', '\\'), ('\x60', '\x60'), ('$', '$'), ('n', '\n'), ('r', '\r')]

/-- The reader and scripts agree on the escapes of template text. -/
theorem agree_of_mem_templateEscapes {letter meant : Char}
    (hescape : (letter, meant) ∈ templateEscapes) :
    singleEscape? letter = some meant ∧
      ∀ rest, readEscape (letter :: rest) = .ok (meant, rest) := by
  simp only [templateEscapes, List.mem_cons, Prod.mk.injEq, List.not_mem_nil, or_false]
    at hescape
  rcases hescape with ⟨rfl, rfl⟩ | ⟨rfl, rfl⟩ | ⟨rfl, rfl⟩ | ⟨rfl, rfl⟩ | ⟨rfl, rfl⟩ <;>
    exact ⟨by decide, fun rest => by simp [readEscape]⟩

/-- A character that stands alone in front of some text: it ends nothing, begins no
escape, breaks no line and opens no hole. -/
structure Alone (c : Char) (text : List Char) : Prop where
  backtick : c ≠ '\x60'
  backslash : c ≠ '\\'
  lineFeed : c ≠ '\n'
  carriageReturn : c ≠ '\r'
  dollar : ¬(c = '$' ∧ text.head? = some '{')

/-- A character is written as one of the escapes, or alone. -/
theorem escapeTemplate_cons_cases (c : Char) (text : List Char) :
    (∃ letter, (letter, c) ∈ templateEscapes ∧
      escapeTemplate (c :: text) = '\\' :: letter :: escapeTemplate text) ∨
    (Alone c text ∧ escapeTemplate (c :: text) = c :: escapeTemplate text) := by
  rw [escapeTemplate]
  split
  · rename_i hescaped
    refine Or.inl ⟨c, ?_, rfl⟩
    rcases hescaped with rfl | rfl | ⟨rfl, -⟩ <;> decide
  rename_i hescaped
  simp only [not_or] at hescaped
  split
  · rename_i hbreak
    exact Or.inl ⟨'n', by rw [hbreak]; decide, rfl⟩
  rename_i hbreak
  split
  · rename_i hreturn
    exact Or.inl ⟨'r', by rw [hreturn]; decide, rfl⟩
  rename_i hreturn
  exact Or.inr ⟨⟨hescaped.2.1, hescaped.1, hbreak, hreturn, hescaped.2.2⟩, rfl⟩

/-! ## What escaped text holds -/

theorem carriageReturn_notMem_escapeTemplate (text : List Char) :
    '\r' ∉ escapeTemplate text := by
  induction text with
  | nil => simp [escapeTemplate]
  | cons c text ih =>
    rcases escapeTemplate_cons_cases c text with ⟨letter, hescape, hwritten⟩ | ⟨halone, hwritten⟩
    · have hletter : '\r' ≠ letter := by
        rintro rfl
        simp [templateEscapes] at hescape
      simp [hwritten, hletter, ih]
    · simp [hwritten, halone.carriageReturn.symm, ih]

/-- The characters of escaped text, one for each character of the text. -/
theorem marks_escapeTemplate_cons_cases (c : Char) (text : List Char) :
    (∃ letter, (letter, c) ∈ templateEscapes ∧
      marks (escapeTemplate (c :: text)) = .escaped letter :: marks (escapeTemplate text)) ∨
    (Alone c text ∧
      marks (escapeTemplate (c :: text)) = .plain c :: marks (escapeTemplate text)) := by
  rcases escapeTemplate_cons_cases c text with ⟨letter, hescape, hwritten⟩ | ⟨halone, hwritten⟩
  · exact Or.inl ⟨letter, hescape, by rw [hwritten, marks_escaped]⟩
  · exact Or.inr ⟨halone, by rw [hwritten, marks_plain halone.backslash]⟩

/-- A character alone that ends nothing and begins no escape, or one of the escapes. -/
def Mark.Safe : Mark → Prop
  | .plain c => c ≠ '\x60' ∧ c ≠ '\\'
  | .escaped letter => ∃ meant, (letter, meant) ∈ templateEscapes

/-- Every character of escaped text is safe. -/
theorem safe_of_mem_marks {mark : Mark} {text : List Char}
    (hmark : mark ∈ marks (escapeTemplate text)) : mark.Safe := by
  induction text with
  | nil => simp [escapeTemplate, marks] at hmark
  | cons c text ih =>
    rcases marks_escapeTemplate_cons_cases c text with ⟨letter, hescape, hmarks⟩ | ⟨halone, hmarks⟩
    · rw [hmarks, List.mem_cons] at hmark
      rcases hmark with rfl | hmark
      · exact ⟨c, hescape⟩
      · exact ih hmark
    · rw [hmarks, List.mem_cons] at hmark
      rcases hmark with rfl | hmark
      · exact ⟨halone.backtick, halone.backslash⟩
      · exact ih hmark

theorem head?_of_head?_marks {c : Char} {text : List Char}
    (hhead : (marks (escapeTemplate text)).head? = some (.plain c)) : text.head? = some c := by
  cases text with
  | nil => simp [escapeTemplate, marks] at hhead
  | cons first text =>
    rcases marks_escapeTemplate_cons_cases first text with ⟨letter, -, hmarks⟩ | ⟨-, hmarks⟩
    · simp [hmarks] at hhead
    · simpa [hmarks] using hhead

/-- No hole is opened inside escaped text. -/
theorem not_hole_infix_marks (text : List Char) :
    ¬[.plain '$', .plain '{'] <:+: marks (escapeTemplate text) := by
  induction text with
  | nil => simp [escapeTemplate, marks]
  | cons c text ih =>
    rcases marks_escapeTemplate_cons_cases c text with ⟨letter, -, hmarks⟩ | ⟨halone, hmarks⟩
    · rw [hmarks, List.infix_cons_iff, not_or]
      exact ⟨by simp, ih⟩
    · rw [hmarks, List.infix_cons_iff, not_or]
      refine ⟨?_, ih⟩
      rw [List.cons_prefix_cons, Mark.plain.injEq]
      rintro ⟨hdollar, rest, hbrace⟩
      -- the brace would be the next character of the text, and so escape the dollar sign
      have hhead : (marks (escapeTemplate text)).head? = some (.plain '{') := by
        rw [← hbrace]
        rfl
      exact halone.dollar ⟨hdollar.symm, head?_of_head?_marks hhead⟩

/-! ## What stands behind a segment -/

/-- A segment ends before the backtick that closes the literal or before a hole. -/
def EndsSegment (tail : List Char) : Prop :=
  tail.head? = some '\x60' ∨ ['$', '{'] <+: tail

theorem EndsSegment.head?_ne {tail : List Char} (htail : EndsSegment tail) :
    tail.head? ≠ some '{' := by
  rcases htail with hbacktick | ⟨rest, rfl⟩
  · simp [hbacktick]
  · simp

/-- Scripts take escaped text for the segment that was escaped, and go on where it ends. -/
theorem scanSegment_escapeTemplate (text : List Char) {tail : List Char}
    (htail : EndsSegment tail) :
    scanSegment (escapeTemplate text ++ tail) = some (text, tail) := by
  induction text with
  | nil =>
    rw [escapeTemplate, List.nil_append]
    rcases htail with hbacktick | ⟨rest, rfl⟩
    · obtain ⟨rest, rfl⟩ := List.head?_eq_some_iff.mp hbacktick
      rw [scanSegment]
    · rw [List.cons_append, List.singleton_append, scanSegment]
  | cons c text ih =>
    rcases escapeTemplate_cons_cases c text with ⟨letter, hescape, hwritten⟩ | ⟨halone, hwritten⟩
    · have hmeant := (agree_of_mem_templateEscapes hescape).1
      rw [hwritten, List.cons_append, List.cons_append, scanSegment_escape hmeant, ih,
        Option.map_some]
    · have hdollar : ¬(c = '$' ∧ (escapeTemplate text ++ tail).head? = some '{') := by
        rintro ⟨hc, hbrace⟩
        have htext : text.head? ≠ some '{' := fun hhead => halone.dollar ⟨hc, hhead⟩
        exact head?_escapeTemplate_ne_brace htext htail.head?_ne hbrace
      rw [hwritten, List.cons_append, scanSegment_plain halone.backtick halone.backslash
        halone.carriageReturn hdollar, ih, Option.map_some]

/-! ## Segments with a hole behind each -/

/-- The source of segments with the hole of a key behind each. -/
def stepsSource (steps : List (String × Key)) : List Char :=
  steps.flatMap fun step =>
    escapeTemplate step.1.toList ++ ['$', '{'] ++ keySource step.2 ++ ['}']

/-- Segments with a hole behind each are read as these segments and keys, whatever the
segments end in, and whatever the text behind the last hole begins with. -/
theorem readTemplateBody_stepsSource (steps : List (String × Key)) (s : List Char) :
    readTemplateBody (stepsSource steps ++ s) =
      (readTemplateBody s).map fun read =>
        (.ofSegments (steps.map Prod.fst ++ read.1.segments)
          (steps.map Prod.snd ++ read.1.keys), read.2) := by
  induction steps with
  | nil =>
    rw [stepsSource, List.flatMap_nil, List.nil_append]
    cases readTemplateBody s with
    | error stop => rfl
    | ok read => simp [Except.map, Interpolation.ofSegments_segments_keys]
  | cons step steps ih =>
    have hsource : stepsSource (step :: steps) ++ s =
        escapeTemplate step.1.toList ++
          '$' :: '{' :: (keySource step.2 ++ '}' :: (stepsSource steps ++ s)) := by
      simp [stepsSource]
    rw [hsource, readTemplateBody_escapeTemplate _ (by simp),
      readTemplateBody_hole (readHole_source step.2 _), ih]
    cases readTemplateBody s with
    | error stop => rfl
    | ok read => simp [Except.map, Interpolation.ofSegments]

/-- A segment behind others is read as it was before it was escaped, and reading goes on
right behind it. -/
theorem readTemplate_segment (steps : List (String × Key)) (text : String) {tail : List Char}
    (htail : EndsSegment tail) :
    readTemplate ('\x60' :: (stepsSource steps ++ (escapeTemplate text.toList ++ tail))) =
      (readTemplateBody tail).map fun read =>
        (.ofSegments (steps.map Prod.fst ++ (read.1.prepend text).segments)
          (steps.map Prod.snd ++ read.1.keys), read.2) := by
  have hbody : readTemplate ('\x60' ::
      (stepsSource steps ++ (escapeTemplate text.toList ++ tail))) =
        readTemplateBody (stepsSource steps ++ (escapeTemplate text.toList ++ tail)) := by
    simp [readTemplate, expect, bind, Except.bind]
  rw [hbody, readTemplateBody_stepsSource, readTemplateBody_escapeTemplate _ htail.head?_ne]
  cases readTemplateBody tail with
  | error stop => rfl
  | ok read => simp [Except.map]

/-- A segment before the closing backtick is the last one. -/
theorem readTemplate_last_segment (steps : List (String × Key)) (text : String)
    (rest : List Char) :
    readTemplate ('\x60' ::
        (stepsSource steps ++ (escapeTemplate text.toList ++ '\x60' :: rest))) =
      .ok (.ofSegments (steps.map Prod.fst ++ [text]) (steps.map Prod.snd), rest) := by
  rw [readTemplate_segment steps text (Or.inl rfl), readTemplateBody_backtick]
  simp [Except.map, Interpolation.ofText, Interpolation.prepend, Interpolation.segments,
    Interpolation.keys]

/-- A segment before a hole has the key in the hole behind it. -/
theorem readTemplate_segment_hole (steps : List (String × Key)) (text : String)
    (rest : List Char) :
    readTemplate ('\x60' ::
        (stepsSource steps ++ (escapeTemplate text.toList ++ '$' :: '{' :: rest))) =
      readHole rest >>= fun hole =>
        (readTemplateBody hole.2).map fun read =>
          (.ofSegments (steps.map Prod.fst ++ text :: read.1.segments)
            (steps.map Prod.snd ++ hole.1 :: read.1.keys), read.2) := by
  have htail : EndsSegment ('$' :: '{' :: rest) := Or.inr ⟨rest, rfl⟩
  rw [readTemplate_segment steps text htail, readTemplateBody_dollar]
  cases readHole rest with
  | error stop => rfl
  | ok hole =>
    simp only [bind, Except.bind]
    cases readTemplateBody hole.2 with
    | error stop => rfl
    | ok read => simp [Except.map]

/-- Escaped text breaks no line.  Nothing in it that is not escaped is a backtick, a
backslash, or a dollar sign before a brace.  It has five escapes, which the reader and
scripts take for the same characters.  Before a backtick or a hole, scripts take it for
the segment that was escaped; and so does the reader, behind any segments with holes:
before a backtick it is the last segment, and before a hole the key in the hole and what
follows stand behind it. -/
theorem escapeTemplate_safe (text : String) :
    ('\n' ∉ escapeTemplate text.toList ∧ '\r' ∉ escapeTemplate text.toList) ∧
    (.plain '\x60' ∉ marks (escapeTemplate text.toList) ∧
      .plain '\\' ∉ marks (escapeTemplate text.toList) ∧
      ¬[.plain '$', .plain '{'] <:+: marks (escapeTemplate text.toList)) ∧
    (∀ letter, .escaped letter ∈ marks (escapeTemplate text.toList) →
      letter ∈ ['\\', '\x60', '$', 'n', 'r'] ∧
        ∃ meant, singleEscape? letter = some meant ∧
          ∀ rest, readEscape (letter :: rest) = .ok (meant, rest)) ∧
    (∀ rest,
      scanSegment (escapeTemplate text.toList ++ '\x60' :: rest) =
        some (text.toList, '\x60' :: rest) ∧
      scanSegment (escapeTemplate text.toList ++ '$' :: '{' :: rest) =
        some (text.toList, '$' :: '{' :: rest)) ∧
    ∀ (steps : List (String × Key)) (rest : List Char),
      readTemplate ('\x60' ::
          (stepsSource steps ++ (escapeTemplate text.toList ++ '\x60' :: rest))) =
        .ok (.ofSegments (steps.map Prod.fst ++ [text]) (steps.map Prod.snd), rest) ∧
      readTemplate ('\x60' ::
          (stepsSource steps ++ (escapeTemplate text.toList ++ '$' :: '{' :: rest))) =
        readHole rest >>= fun hole =>
          (readTemplateBody hole.2).map fun read =>
            (.ofSegments (steps.map Prod.fst ++ text :: read.1.segments)
              (steps.map Prod.snd ++ hole.1 :: read.1.keys), read.2) := by
  refine ⟨⟨notMem_escapeTemplate _, carriageReturn_notMem_escapeTemplate _⟩,
    ⟨?_, ?_, not_hole_infix_marks _⟩, ?_, ?_, ?_⟩
  · intro hbacktick
    exact (safe_of_mem_marks hbacktick).1 rfl
  · intro hbackslash
    exact (safe_of_mem_marks hbackslash).2 rfl
  · intro letter hletter
    obtain ⟨meant, hescape⟩ := safe_of_mem_marks hletter
    have hmem : letter ∈ templateEscapes.map Prod.fst := List.mem_map_of_mem hescape
    exact ⟨by simpa [templateEscapes] using hmem, meant, agree_of_mem_templateEscapes hescape⟩
  · intro rest
    exact ⟨scanSegment_escapeTemplate _ (Or.inl rfl),
      scanSegment_escapeTemplate _ (Or.inr ⟨rest, rfl⟩)⟩
  · intro steps rest
    exact ⟨readTemplate_last_segment steps text rest, readTemplate_segment_hole steps text rest⟩

/-- A segment that ends in a dollar sign, behind one that ends in a backslash. -/
theorem escapeTemplate_safe_dollar :
    (.escaped 'n' ∈ marks (escapeTemplate "$\x7b\n$".toList) ∧
      'n' ∈ ['\\', '\x60', '$', 'n', 'r'] ∧
        ∃ meant, singleEscape? 'n' = some meant ∧
          ∀ rest, readEscape ('n' :: rest) = .ok (meant, rest)) ∧
    readTemplate ('\x60' :: (stepsSource [("a\\", .named "k")] ++
        (escapeTemplate "$\x7b\n$".toList ++ ['\x60']))) =
      .ok (.ofSegments ["a\\", "$\x7b\n$"] [.named "k"], []) := by
  obtain ⟨-, -, hescapes, -, hreads⟩ := escapeTemplate_safe "$\x7b\n$"
  have hletter : .escaped 'n' ∈ marks (escapeTemplate "$\x7b\n$".toList) := by
    decide
  exact ⟨⟨hletter, hescapes 'n' hletter⟩, (hreads [("a\\", .named "k")] []).1⟩

end Phrasebook.Script

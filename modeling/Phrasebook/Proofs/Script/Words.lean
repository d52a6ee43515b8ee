import Phrasebook.Proofs.Script.Contexts

/-!
# Words and headers of compiled sources

Names and parameters are read as whole words, but the two words of a module header are
only looked for at the front of the text, with no regard to what they go on with.  So
the parameter of a function does not matter anywhere but at the start of a source, where
one that begins like a header is taken for it, and in a header itself nothing has to
keep the words apart.

Main results:

- Theorem `readTree_functionSource`: a function is read alike with every parameter.
- Theorem `readSource_function_header`: no function at the start of a source is read
  whose parameter begins like a header.
- Theorem `readSource_header_iff`: what a text that begins like a header is read as.
- Theorem `ofSource_words`: all of this for whole sources.
-/

namespace Phrasebook.Script

open Text

variable {front param rest s : List Char}

/-! ## Functions with any parameter -/

/-- A function is read alike with every parameter. -/
theorem readTree_functionSource (hparam : IsParameter param) (i : Interpolation)
    (rest : List Char) :
    readTree (functionSource param i.lead i.rest ++ rest) =
      .ok (.cases (.single (.interpolated i)), rest) := by
  obtain ⟨⟨first, hfirst, hstart⟩, -⟩ := hparam.word
  obtain ⟨others, rfl⟩ := List.head?_eq_some_iff.mp hfirst
  rw [readTree_eq, ← readWordValue_function hparam i.lead i.rest rest]
  exact readValueWith_word hstart

/-- A function can stand wherever a value can, unless nothing stands in front of it and
its parameter begins like a header. -/
theorem opens_functionSource (hparam : IsParameter param)
    (hplain : (∀ c ∈ front, isBlank c = true) → ¬"export".toList <+: param) (i : Interpolation)
    (rest : List Char) : Opens front (functionSource param i.lead i.rest ++ rest) := by
  have hspace : ∀ c ∈ (" => ".toList ++ (param ++ '\x60' :: (templateSource i.lead i.rest ++
      '\x60' :: rest))).head?, isWordChar c = false := by
    simp
  simpa [functionSource] using opens_word hparam.word hplain hspace

/-! ## Functions taken for headers -/

/-- A function that calls another word than its parameter is refused. -/
theorem readFunction_foreign {called : List Char} (hcalled : IsWord called)
    (hforeign : called ≠ param) (tail : List Char) (result : Interpolation × List Char) :
    readFunction param (" => ".toList ++ (called ++ '\x60' :: tail)) ≠ .ok result := by
  obtain ⟨⟨first, hfirst, hstart⟩, hchars⟩ := hcalled
  obtain ⟨others, rfl⟩ := List.head?_eq_some_iff.mp hfirst
  have hvisible : isBlank first = false := isBlank_of_isWordChar (by simp [isWordChar, hstart])
  have hrun : wordRun (first :: (others ++ '\x60' :: tail)) = (first :: others, '\x60' :: tail) :=
    wordRun_append hchars (by simp)
  simp only [readFunction, show " => ".toList = [' ', '=', '>', ' '] from rfl, List.cons_append,
    List.nil_append, trimStart_cons_of_isBlank isBlank_space,
    trimStart_cons_of_not_isBlank (show isBlank '=' = false by decide),
    trimStart_cons_of_not_isBlank hvisible, expect, if_true, bind, Except.bind, hstart, hrun]
  simp [hforeign, stopBefore]

/-- A text that begins with a digit is read as a number, up to what is no part of one. -/
theorem eq_dropWhile_of_readValueWith {item : Reader Fault (Tree Phrase)} {c : Char}
    (hdigit : c.isDigit = true) {tree : Tree Phrase}
    (hread : readValueWith item (c :: s) = .ok (tree, rest)) :
    rest = (c :: s).dropWhile isNumberChar := by
  have hother : c ≠ '"' ∧ c ≠ '[' ∧ c ≠ '{' := by
    refine ⟨?_, ?_, ?_⟩ <;> rintro rfl <;> simp at hdigit
  simp only [readValueWith, trimStart_cons_of_not_isBlank (isBlank_of_isDigit hdigit),
    hother.1, hother.2.1, hother.2.2, hdigit, or_true, if_true, if_false] at hread
  obtain ⟨⟨n, left⟩, hnumber, hread⟩ := ok_of_map hread
  obtain rfl : left = rest := (Prod.mk.inj hread).2
  simp only [readNumber] at hnumber
  split at hnumber
  · simp only [Except.ok.injEq, Prod.mk.injEq] at hnumber
    exact hnumber.2.symm
  · simp [stopBefore] at hnumber

/-- What is no part of a run is left behind it. -/
theorem mem_dropWhile_of_not {p : Char → Bool} {c : Char} (hc : c ∈ s) (hp : p c = false) :
    c ∈ s.dropWhile p := by
  rw [← List.takeWhile_append_dropWhile (p := p) (l := s), List.mem_append] at hc
  rcases hc with hrun | hrest
  · have hpass := List.all_eq_true.mp List.all_takeWhile c hrun
    rw [hp] at hpass
    cases hpass
  · exact hrest

/-- Whatever is read in front of an arrow and the call of another word, the arrow is
left. -/
theorem equals_mem_of_readTree {word called tail : List Char}
    (hword : ∀ c ∈ word, isWordChar c = true) (hcalled : IsWord called)
    (hforeign : called ≠ word) {tree : Tree Phrase}
    (hread : readTree (word ++ (" => ".toList ++ (called ++ '\x60' :: tail))) =
      .ok (tree, rest)) : '=' ∈ rest := by
  have hrun : wordRun (word ++ (" => ".toList ++ (called ++ '\x60' :: tail))) =
      (word, " => ".toList ++ (called ++ '\x60' :: tail)) :=
    wordRun_append hword (by simp)
  have harrow : '=' ∈ word ++ (" => ".toList ++ (called ++ '\x60' :: tail)) := by simp
  rw [readTree_eq] at hread
  cases word with
  | nil => simp [readValueWith, isWordStart, stopBefore] at hread
  | cons c word =>
    have hvisible := isBlank_of_isWordChar (hword c (List.mem_cons_self ..))
    rcases Bool.or_eq_true .. ▸ hword c (List.mem_cons_self ..) with hstart | hdigit
    · -- A scalar ends in front of the arrow, and a function would call its own parameter.
      rw [List.cons_append, readValueWith_word hstart, ← List.cons_append] at hread
      simp only [readWordValue, hrun] at hread
      have hscalar : ∀ value : Scalar, (.ok (.data value, " => ".toList ++ (called ++
          '\x60' :: tail)) : Except (Stop Fault) _) = .ok (tree, rest) → '=' ∈ rest := by
        intro value heq
        simp only [Except.ok.injEq, Prod.mk.injEq] at heq
        rw [← heq.2]
        simp
      split at hread
      · exact hscalar _ hread
      split at hread
      · exact hscalar _ hread
      split at hread
      · exact hscalar _ hread
      · obtain ⟨result, hfunction, -⟩ := ok_of_map hread
        exact absurd hfunction (readFunction_foreign hcalled hforeign tail result)
    · rw [eq_dropWhile_of_readValueWith hdigit hread]
      exact mem_dropWhile_of_not harrow (by decide)

/-- An arrow is no footer. -/
theorem not_isFooter_of_equals (hs : '=' ∈ s) : ¬IsFooter s := by
  rintro ⟨front, mark, back, rfl, hmark, hfront, hback⟩
  have hvisible : isBlank '=' = false := by decide
  simp only [List.mem_append] at hs
  rcases hs with (hs | hs) | hs
  · rw [hfront '=' hs] at hvisible
    cases hvisible
  · rcases hmark with rfl | rfl <;> simp at hs
  · rw [hback '=' hs] at hvisible
    cases hvisible

/-- What was read behind a header stands behind both of its words, with white space
alone in front of them and between them. -/
theorem exists_header (hexport : "export".toList <+: trimStart s)
    (hread : readHeader s = .ok rest) :
    ∃ gap, (∀ c ∈ gap, isBlank c = true) ∧
      trimStart s = "export".toList ++ (gap ++ ("default".toList ++ rest)) := by
  obtain ⟨behind, hbehind⟩ := hexport
  have hfirst : List.isPrefixOf? ['e', 'x', 'p', 'o', 'r', 't'] (trimStart s) = some behind :=
    List.isPrefixOf?_eq_some_iff_append_eq.mpr hbehind
  rw [readHeader, hfirst] at hread
  simp only at hread
  split at hread
  · simp [stopBefore] at hread
  · rename_i rest hdefault
    rw [← Except.ok.inj hread]
    obtain ⟨gap, hgap, hblank⟩ := exists_blank_trimStart behind
    refine ⟨gap, hblank, ?_⟩
    rw [← hbehind, show "default".toList ++ rest = trimStart behind from
      List.isPrefixOf?_eq_some_iff_append_eq.mp hdefault, ← hgap]

/-- When a word in front of an arrow was taken for a header, its rest is left. -/
theorem exists_rest_of_header {word tail : List Char} (hword : ∀ c ∈ word, isWordChar c = true)
    (htrim : trimStart s = "export".toList ++ (word ++ (" => ".toList ++ tail)))
    (hread : readHeader s = .ok rest) :
    ∃ others, word = "default".toList ++ others ∧ rest = others ++ (" => ".toList ++ tail) := by
  have hkeep : ∀ t, trimStart ("default".toList ++ t) = "default".toList ++ t :=
    fun t => trimStart_cons_of_not_isBlank (by decide)
  obtain ⟨gap, hgap, hsplit⟩ := exists_header ⟨_, htrim.symm⟩ hread
  rw [htrim, List.append_cancel_left_eq] at hsplit
  have hdefault := congrArg trimStart hsplit
  rw [trimStart_append_of_blank hgap, hkeep] at hdefault
  obtain ⟨others, rfl⟩ : "default".toList <+: word := by
    cases word with
    | nil => simp at hdefault
    | cons c word =>
      have hvisible := isBlank_of_isWordChar (hword c (List.mem_cons_self ..))
      rw [List.cons_append, trimStart_cons_of_not_isBlank hvisible] at hdefault
      have hspace : ∀ c ∈ (" => ".toList ++ tail).head?, isWordChar c = false := by simp
      exact prefix_of_prefix_append (List.all_eq_true.mp (by decide)) hspace
        ⟨rest, hdefault.symm⟩
  rw [List.append_assoc, hkeep, List.append_cancel_left_eq] at hdefault
  exact ⟨others, rfl, hdefault.symm⟩

/-- No function at the start of a source is read whose parameter begins like a header. -/
theorem readSource_function_header (hparam : IsParameter param)
    (hexport : "export".toList <+: param) (hfront : ∀ c ∈ front, isBlank c = true)
    (i : Interpolation) (rest : List Char) (tree : Tree Phrase) :
    readSource (front ++ (functionSource param i.lead i.rest ++ rest)) ≠ .ok tree := by
  intro hread
  obtain ⟨word, rfl⟩ := hexport
  have hword : ∀ c ∈ word, isWordChar c = true :=
    fun c hc => hparam.word.2 c (List.mem_append_right _ hc)
  have htrim : trimStart (front ++ (functionSource ("export".toList ++ word) i.lead i.rest ++
      rest)) = "export".toList ++ (word ++ (" => ".toList ++ ("export".toList ++ word ++
        '\x60' :: (templateSource i.lead i.rest ++ '\x60' :: rest)))) := by
    rw [trimStart_append_of_blank hfront, functionSource]
    simp only [List.append_assoc, List.cons_append, List.nil_append]
    exact trimStart_cons_of_not_isBlank (by decide)
  rw [readSource_eq] at hread
  obtain ⟨left, hheader, hread⟩ := ok_of_bind hread
  obtain ⟨⟨found, behind⟩, htree, hread⟩ := ok_of_bind hread
  obtain ⟨_, hfooter, -⟩ := ok_of_map hread
  obtain ⟨others, rfl, rfl⟩ := exists_rest_of_header hword htrim hheader
  have hforeign : "export".toList ++ ("default".toList ++ others) ≠ others := by
    intro heq
    have hlength := congrArg List.length heq
    simp at hlength
    omega
  exact not_isFooter_of_equals
    (equals_mem_of_readTree (fun c hc => hword c (List.mem_append_right _ hc)) hparam.word
      hforeign htree)
    (readFooter_eq_ok_iff.mp hfooter)

/-! ## Headers -/

/-- A text that begins like a header is read as what stands behind both words, whatever
keeps them apart. -/
theorem readSource_header_iff (hexport : "export".toList <+: trimStart s) {tree : Tree Phrase} :
    readSource s = .ok tree ↔ ∃ front gap rest, (∀ c ∈ front, isBlank c = true) ∧
      (∀ c ∈ gap, isBlank c = true) ∧
      s = front ++ "export".toList ++ gap ++ "default".toList ++ rest ∧
      readSource ("export default".toList ++ rest) = .ok tree := by
  constructor
  · intro hread
    have hwhole := hread
    rw [readSource_eq] at hread
    obtain ⟨rest, hheader, hread⟩ := ok_of_bind hread
    obtain ⟨front, hfront, hblank⟩ := exists_blank_trimStart s
    obtain ⟨gap, hgap, hsplit⟩ := exists_header hexport hheader
    refine ⟨front, gap, rest, hblank, hgap, ?_, ?_⟩
    · rw [hfront, hsplit]
      simp
    · rw [readSource_eq, readHeader_module]
      exact hread
  · rintro ⟨front, gap, rest, hfront, hgap, rfl, hread⟩
    rw [readSource_eq, readHeader_module] at hread
    rw [readSource_eq, readHeader_header hfront hgap]
    exact hread

/-! ## Whole sources -/

/-- A function is exchanged for the one with another parameter at any place. -/
theorem readSource_function_congr {other : List Char} (hparam : IsParameter param)
    (hother : IsParameter other) (hfront : Leads front)
    (hplain : (∀ c ∈ front, isBlank c = true) →
      ¬"export".toList <+: param ∧ ¬"export".toList <+: other)
    (i : Interpolation) (rest : List Char) :
    readSource (front ++ (functionSource param i.lead i.rest ++ rest)) =
      readSource (front ++ (functionSource other i.lead i.rest ++ rest)) := by
  obtain ⟨next, hnext⟩ := exists_readSource_of_leads hfront
  rw [hnext _ (opens_functionSource hparam (fun hblank => (hplain hblank).1) i rest),
    hnext _ (opens_functionSource hother (fun hblank => (hplain hblank).2) i rest),
    readTree_functionSource hparam, readTree_functionSource hother]

/-- A function alone behind what is read as a header, or as none, is read as its
interpolation. -/
theorem readSource_function {gap : List Char} (hparam : IsParameter param) (i : Interpolation)
    (hgap : ∀ c ∈ gap, isBlank c = true)
    (hheader : readHeader s = .ok (gap ++ functionSource param i.lead i.rest)) :
    readSource s = .ok (.cases (.single (.interpolated i))) := by
  have hread := readTree_functionSource hparam i []
  rw [List.append_nil, ← readTree_trimStart, ← trimStart_append_of_blank hgap,
    readTree_trimStart] at hread
  rw [readSource_eq, hheader]
  change readTree _ >>= _ = _
  rw [hread]
  rfl

end Phrasebook.Script

namespace Phrasebook

open Script Text

/-- The parameter of a function does not matter at any place of a value, with one
exception: at the start of a source a parameter that begins with `export` is taken for a
header, and the source is refused.  And a header needs no white space: it is read as the
same header whatever white space is between its words, and whatever follows them. -/
theorem ofSource_words {param : List Char} (hparam : IsParameter param) (i : Interpolation)
    (source : String) (tree : Tree Phrase) :
    (∀ front rest, Leads front →
      ((∀ c ∈ front, isBlank c = true) → ¬"export".toList <+: param) →
      (Tree.ofSource (String.ofList
          (front ++ (functionSource param i.lead i.rest ++ rest))) = .ok tree ↔
        Tree.ofSource (String.ofList
          (front ++ (functionSource rendererName.toList i.lead i.rest ++ rest))) = .ok tree)) ∧
    (Tree.ofSource (String.ofList (functionSource param i.lead i.rest)) =
        .ok (.cases (.single (.interpolated i))) ↔ ¬"export".toList <+: param) ∧
    Tree.ofSource (String.ofList ("export default ".toList ++ functionSource param i.lead i.rest)) =
      .ok (.cases (.single (.interpolated i))) ∧
    (∀ front rest, (∀ c ∈ front, isBlank c = true) → "export".toList <+: param →
      ∃ error, Tree.ofSource (String.ofList
        (front ++ (functionSource param i.lead i.rest ++ rest))) = .error error) ∧
    ("export".toList <+: trimStart source.toList →
      (Tree.ofSource source = .ok tree ↔
        ∃ front gap rest, (∀ c ∈ front, isBlank c = true) ∧ (∀ c ∈ gap, isBlank c = true) ∧
          source.toList = front ++ "export".toList ++ gap ++ "default".toList ++ rest ∧
          Tree.ofSource ("export default" ++ String.ofList rest) = .ok tree)) := by
  refine ⟨?_, ⟨?_, ?_⟩, ?_, ?_, ?_⟩
  · intro front rest hfront hplain
    have hsame := readSource_function_congr hparam isParameter_rendererName hfront
      (fun hblank => ⟨hplain hblank, by decide⟩) i rest
    rw [ofSource_eq_ok_iff, ofSource_eq_ok_iff, String.toList_ofList, String.toList_ofList,
      hsame]
  · intro hread hexport
    have hrefused := @readSource_function_header [] param hparam hexport (by simp) i []
    rw [ofSource_eq_ok_iff, String.toList_ofList] at hread
    rw [List.nil_append, List.append_nil] at hrefused
    exact hrefused _ hread
  · intro hplain
    have hopens : Opens [] (functionSource param i.lead i.rest ++ []) :=
      opens_functionSource hparam (fun _ => hplain) i []
    rw [List.append_nil] at hopens
    have hheader : readHeader (functionSource param i.lead i.rest) =
        .ok ([] ++ functionSource param i.lead i.rest) :=
      readHeader_of_not_prefix (hopens.plain (by simp))
    rw [ofSource_eq_ok_iff, String.toList_ofList]
    exact readSource_function hparam i (by simp) hheader
  · have hheader : readHeader ("export default ".toList ++ functionSource param i.lead i.rest) =
        .ok ([' '] ++ functionSource param i.lead i.rest) :=
      readHeader_module _
    rw [ofSource_eq_ok_iff, String.toList_ofList]
    exact readSource_function hparam i (by simp) hheader
  · intro front rest hfront hexport
    refine exists_error_of_ne_ok fun found => ?_
    rw [String.toList_ofList]
    exact readSource_function_header hparam hexport hfront i rest found
  · intro hexport
    rw [ofSource_eq_ok_iff, readSource_header_iff hexport]
    simp only [ofSource_eq_ok_iff, String.toList_append, String.toList_ofList]

/-- A longer word than that of a header is a parameter. -/
theorem isParameter_exporter : IsParameter "exporter".toList :=
  ⟨⟨⟨'e', rfl, by decide⟩, List.all_eq_true.mp (by decide)⟩, by decide, by decide, by decide⟩

/-- The parameter `exporter` is read in an array and in a module, and refused where the
source starts with it; a header without white space is read like one with it. -/
theorem ofSource_words_exporter :
    Tree.ofSource "[exporter => exporter\x60x\x60]" =
        .ok (.cases (.plural [.interpolated (Interpolation.ofText "x")])) ∧
      Tree.ofSource "export default exporter => exporter\x60x\x60" =
        .ok (.cases (.single (.interpolated (Interpolation.ofText "x")))) ∧
      (∃ error, Tree.ofSource "exporter => exporter\x60x\x60" = .error error) ∧
      Tree.ofSource "exportdefault\x7b\x7d" = .ok (.map (Entries.ofList [])) := by
  have hwords := ofSource_words isParameter_exporter (Interpolation.ofText "x")
    "exportdefault\x7b\x7d"
  refine ⟨?_, (hwords (.list [])).2.2.1, ?_, ?_⟩
  · have harray : Leads ['['] := Leads.array Leads.start Passed.nil
    have hbracket : (∀ c ∈ ['['], isBlank c = true) → ¬"export".toList <+: "exporter".toList := by
      simp
    exact ((hwords _).1 ['['] [']'] harray hbracket).mpr (by decide +kernel)
  · exact (hwords (.list [])).2.2.2.1 [] [] (by simp) ⟨"er".toList, rfl⟩
  · refine ((hwords _).2.2.2.2 ⟨"default\x7b\x7d".toList, by decide⟩).mpr ?_
    exact ⟨[], [], "\x7b\x7d".toList, by simp, by simp, by decide, by decide +kernel⟩

/-- The same function is refused with the parameter `exporter` and read with `i`. -/
theorem ofSource_exporter :
    IsParameter "exporter".toList ∧ "exporter" ≠ "export" ∧
      Tree.ofSource "exporter => exporter\x60x\x60" = .error ⟨.expectedDefault, 6⟩ ∧
      Tree.ofSource "i => i\x60x\x60" =
        .ok (.cases (.single (.interpolated (Interpolation.ofText "x")))) := by
  exact ⟨isParameter_exporter, by decide, by decide +kernel, by decide +kernel⟩

end Phrasebook

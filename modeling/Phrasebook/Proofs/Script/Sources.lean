import Phrasebook.Proofs.Script.Trees

/-!
# Whole sources read back

A whole source is a value with an optional module header before it and an optional
semicolon behind it.  A printed value alone and a printed module are both read as
the tree that the value stands for.

Main results:

- Theorem `readFooter_eq_ok_iff`: what may stand behind a value is white space, at
  most one semicolon, and white space.
- Theorems `readSource_source` and `readSource_module`: what stands behind a printed
  value decides whether it is read as its tree or refused.
- Theorems `ofSource_text` and `ofSource_moduleText`: an expression and a module of
  it are read as the tree that the expression stands for.
-/

namespace Phrasebook.Script

open Text

/-! ## Behind a value -/

/-- White space, at most one semicolon, and white space. -/
def IsFooter (s : List Char) : Prop :=
  ∃ front mark back, s = front ++ mark ++ back ∧ (mark = [] ∨ mark = [';']) ∧
    (∀ c ∈ front, isBlank c = true) ∧ ∀ c ∈ back, isBlank c = true

/-- Behind a semicolon only white space is left. -/
theorem readFooter_semicolon {s rest : List Char} (hs : trimStart s = ';' :: rest) :
    readFooter s = .ok () ↔ ∀ c ∈ rest, isBlank c = true := by
  rw [← trimStart_eq_nil_iff]
  simp only [readFooter, hs]
  cases trimStart rest <;> simp [stopBefore]

/-- Without a semicolon there is only white space. -/
theorem readFooter_plain {s : List Char} (hs : ∀ rest, trimStart s ≠ ';' :: rest) :
    readFooter s = .ok () ↔ ∀ c ∈ s, isBlank c = true := by
  rw [← trimStart_eq_nil_iff]
  unfold readFooter
  split
  · rename_i hsemicolon
    exact absurd hsemicolon (hs _)
  · simp only [trimStart_trimStart]
    cases trimStart s <;> simp [stopBefore]

/-- Nothing but a footer may stand behind a value. -/
theorem readFooter_eq_ok_iff {s : List Char} : readFooter s = .ok () ↔ IsFooter s := by
  constructor
  · intro hread
    by_cases hmark : ∃ rest, trimStart s = ';' :: rest
    · obtain ⟨rest, hrest⟩ := hmark
      obtain ⟨front, hfront, hblank⟩ := exists_blank_trimStart s
      rw [hrest] at hfront
      exact ⟨front, [';'], rest, by simpa using hfront, Or.inr rfl, hblank,
        (readFooter_semicolon hrest).mp hread⟩
    · rw [not_exists] at hmark
      exact ⟨s, [], [], by simp, Or.inl rfl, (readFooter_plain hmark).mp hread, by simp⟩
  · rintro ⟨front, mark, back, rfl, hmark, hfront, hback⟩
    rcases hmark with rfl | rfl
    · have hall : ∀ c ∈ front ++ [] ++ back, isBlank c = true := by
        intro c hc
        rw [List.append_nil] at hc
        rcases List.mem_append.mp hc with hc | hc
        · exact hfront c hc
        · exact hback c hc
      have hnil := trimStart_eq_nil_iff.mpr hall
      refine (readFooter_plain ?_).mpr hall
      rw [hnil]
      simp
    · have hsemicolon : trimStart (front ++ [';'] ++ back) = ';' :: back := by
        rw [List.append_assoc, trimStart_append_of_blank hfront]
        exact trimStart_cons_of_not_isBlank (by decide)
      exact (readFooter_semicolon hsemicolon).mpr hback

/-! ## In front of a value -/

/-- A text whose first visible character starts no header has none. -/
theorem readHeader_of_trimStart {text : List Char} {c : Char} {s : List Char}
    (htext : trimStart text = c :: s) (hc : c ≠ 'e') : readHeader text = .ok text := by
  have hbegin : List.isPrefixOf? ['e', 'x', 'p', 'o', 'r', 't'] (c :: s) = none := by
    show (if 'e' == c then _ else none) = none
    rw [if_neg (by simpa using hc.symm)]
  simp only [readHeader, htext, hbegin]

/-- A text that starts with something visible and not like a header has none. -/
theorem readHeader_of_head {c : Char} {s : List Char} (hvisible : isBlank c = false)
    (hc : c ≠ 'e') : readHeader (c :: s) = .ok (c :: s) :=
  readHeader_of_trimStart (trimStart_cons_of_not_isBlank hvisible) hc

/-- The header of a module is taken off. -/
theorem readHeader_module (s : List Char) :
    readHeader ("export default".toList ++ s) = .ok s := by
  have hexport : trimStart ("export default".toList ++ s) = "export default".toList ++ s :=
    trimStart_cons_of_not_isBlank (by decide)
  have hdefault : trimStart (" default".toList ++ s) = "default".toList ++ s :=
    (trimStart_cons_of_isBlank (by decide)).trans (trimStart_cons_of_not_isBlank (by decide))
  have hfirst : List.isPrefixOf? ['e', 'x', 'p', 'o', 'r', 't']
      ("export default".toList ++ s) = some (" default".toList ++ s) := rfl
  have hsecond : List.isPrefixOf? ['d', 'e', 'f', 'a', 'u', 'l', 't']
      ("default".toList ++ s) = some s := rfl
  simp only [readHeader, hexport, hfirst, hdefault, hsecond]

/-! ## Whole sources -/

section

variable {expr : Expr} {tree : Tree Phrase} {rest : List Char}

/-- A printed value is read as its tree when a footer stands behind it. -/
theorem readSource_source (hexpr : Denotes expr tree)
    (hrest : (∃ value, tree = .data value) → Separate rest) :
    readSource (expr.source 0 ++ rest) = (readFooter rest).map fun _ => tree := by
  obtain ⟨c, s, hsource, hvisible, -, -, hc⟩ := exists_head_source hexpr 0
  have hheader : readHeader (expr.source 0 ++ rest) = .ok (expr.source 0 ++ rest) := by
    rw [hsource]
    exact readHeader_of_head hvisible hc
  have hvalue : readValue ((expr.source 0 ++ rest).length + 1) (expr.source 0 ++ rest) =
      .ok (tree, rest) :=
    readValue_source hexpr 0 _ rest (by simp; omega) hrest
  simp only [readSource, hheader, bind, Except.bind]
  rw [hvalue]
  simp only
  cases readFooter rest <;> rfl

/-- A printed value in a module is read as its tree when a footer stands behind it. -/
theorem readSource_module (hexpr : Denotes expr tree)
    (hrest : (∃ value, tree = .data value) → Separate rest) :
    readSource ("export default ".toList ++ expr.source 0 ++ rest) =
      (readFooter rest).map fun _ => tree := by
  obtain ⟨c, s, hsource, hvisible, -⟩ := exists_head_source hexpr 0
  have hsplit : "export default ".toList ++ expr.source 0 ++ rest =
      "export default".toList ++ (' ' :: (expr.source 0 ++ rest)) := by
    simp
  have hspace : ∀ depth, readValue (depth + 1) (' ' :: (expr.source 0 ++ rest)) =
      readValue (depth + 1) (expr.source 0 ++ rest) := by
    intro depth
    have htrim := @readValueWith_trimStart (readValue depth)
      (' ' :: (expr.source 0 ++ rest))
    rw [hsource, List.cons_append, trimStart_cons_of_isBlank (by decide),
      trimStart_cons_of_not_isBlank hvisible] at htrim
    rw [hsource]
    exact htrim.symm
  have hvalue : ∀ depth, (expr.source 0).length ≤ depth + 1 →
      readValue (depth + 1) (expr.source 0 ++ rest) = .ok (tree, rest) := by
    intro depth hdepth
    exact readValue_source hexpr 0 _ rest hdepth hrest
  rw [hsplit, readSource, readHeader_module]
  simp only [bind, Except.bind, hspace]
  rw [hvalue _ (by simp; omega)]
  simp only
  cases readFooter rest <;> rfl

/-- The text of an expression is read as the tree that the expression stands for. -/
theorem ofSource_text (hexpr : Denotes expr tree) : Tree.ofSource expr.text = .ok tree := by
  have hread := readSource_source hexpr fun _ => separate_nil
  have hfooter : readFooter [] = .ok () := rfl
  rw [List.append_nil, hfooter, ← Expr.toList_text] at hread
  simp only [Tree.ofSource, hread]
  rfl

/-- The text of a module is read as the tree that its default export stands for. -/
theorem ofSource_moduleText (hexpr : Denotes expr tree) :
    Tree.ofSource expr.moduleText = .ok tree := by
  have hread := readSource_module hexpr fun _ =>
    separate_punctuation ['\n'] (Or.inr (Or.inl rfl))
  have hfooter : readFooter [';', '\n'] = .ok () :=
    readFooter_eq_ok_iff.mpr ⟨[], [';'], ['\n'], rfl, Or.inr rfl, by simp,
      List.all_eq_true.mp (by decide)⟩
  rw [hfooter, ← Expr.toList_moduleText] at hread
  simp only [Tree.ofSource, hread]
  rfl

end

end Phrasebook.Script

namespace Phrasebook

open Script

/-! ## Sources as a whole -/

/-- A source that is read as no tree is refused with an error. -/
theorem exists_error_of_ne_ok {source : String}
    (hread : ∀ found, readSource source.toList ≠ .ok found) :
    ∃ error, Tree.ofSource source = .error error := by
  cases hsource : readSource source.toList with
  | ok found => exact absurd hsource (hread found)
  | error stop => exact ⟨_, by simp only [Tree.ofSource, hsource]; rfl⟩

/-- A source is read as a tree when the reader reads it as one. -/
theorem ofSource_eq_ok_iff {source : String} {tree : Tree Phrase} :
    Tree.ofSource source = .ok tree ↔ readSource source.toList = .ok tree := by
  unfold Tree.ofSource
  cases readSource source.toList <;> simp

end Phrasebook

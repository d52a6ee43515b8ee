import Phrasebook.Proofs.Script.Depth
import Phrasebook.Proofs.Script.Longer
import Phrasebook.Proofs.Script.Sources

/-!
# Places of values in compiled sources

A value may stand at the start of a source, behind a module header, in an array behind
other items, or in an object behind other entries and its own name.  Wherever it stands,
reading the source is reading the value and then doing something that depends on the
outcome alone.  So texts that are read alike can be exchanged at any place.

Main results:

- Definition `Leads`: what stands in front of a value.
- Theorem `exists_readSource_of_leads`: reading a source is reading the value at such a
  place first.
-/

namespace Phrasebook.Script

open Text

variable {α : Type} {front gap s : List Char}

/-! ## Parts in front of a mark -/

/-- A text that is read as a whole when `mark` stands behind it. -/
def Stands (item : Reader Fault α) (mark : Char) (text : List Char) : Prop :=
  ∃ value rest, item (trimStart (text ++ [mark])) = .ok (value, rest) ∧ trimStart rest = [mark]

/-- What is read in front of a mark is read there whatever follows the mark. -/
theorem Stands.exists_read {item : Reader Fault α} {mark : Char} {text : List Char}
    (hstands : Stands item mark text) (hmark : isBlank mark = false)
    (hitem : ∀ more, Extends more item item) :
    ∃ value, ∀ more, ∃ rest, item (trimStart (text ++ mark :: more)) = .ok (value, rest) ∧
      trimStart rest = mark :: more := by
  obtain ⟨value, rest, hread, hrest⟩ := hstands
  refine ⟨value, fun more => ⟨rest ++ more, ?_, ?_⟩⟩
  · have htext : trimStart (text ++ [mark]) ≠ [] := by
      rw [Ne, trimStart_eq_nil_iff]
      intro hblank
      simp [hblank mark (by simp)] at hmark
    have hsplit : text ++ mark :: more = text ++ [mark] ++ more := by simp
    rw [hsplit, trimStart_append_of_ne_nil htext]
    exact hitem more _ _ _ hread (ne_nil_of_trimStart (by simp [hrest]))
  · rw [trimStart_append_of_ne_nil (by simp [hrest]), hrest, List.singleton_append]

/-- Items of a sequence, each with a comma behind it. -/
inductive Passed (item : Reader Fault α) : List Char → Prop
  | nil : Passed item []
  | cons {first others : List Char} (hfirst : Stands item ',' first)
      (hothers : Passed item others) : Passed item (first ++ ',' :: others)

/-- Behind other items a sequence goes on with the next item. -/
theorem Passed.exists_readSequence {item : Reader Fault α} {passed : List Char}
    (hpassed : Passed item passed) {close : Char} (hitem : Shrinks item)
    (hmore : ∀ more, Extends more item item)
    (hclose : ∀ s result, s.head? = some close → item s ≠ .ok result) :
    ∃ next, ∀ s, (trimStart s).head? ≠ some close →
      readSequence close item (passed ++ s) = item (trimStart s) >>= next := by
  induction hpassed with
  | nil => exact ⟨readOthers close item, fun s hs => readSequence_of_open hitem hs⟩
  | @cons first others hfirst _ ih =>
    obtain ⟨value, hread⟩ := hfirst.exists_read (by decide) hmore
    obtain ⟨next, hnext⟩ := ih
    refine ⟨fun read => (next read).map fun rest => (value :: rest.1, rest.2), ?_⟩
    intro s hs
    obtain ⟨rest, hvalue, hcomma⟩ := hread (others ++ s)
    have hopen : (trimStart (first ++ ',' :: (others ++ s))).head? ≠ some close :=
      fun hhead => hclose _ _ hhead hvalue
    rw [List.append_assoc, List.cons_append, readSequence_of_open hitem hopen, hvalue]
    change readOthers close item (value, rest) = _
    rw [readOthers_comma hcomma, hnext s hs]
    cases item (trimStart s) <;> rfl

/-! ## Values and entries as items -/

theorem extends_readTree (more : List Char) : Extends more readTree readTree := by
  intro s tree rest hread hrest
  rw [readTree_eq_readValue le_rfl] at hread
  exact readValue_append (by simp) hread (Or.inl hrest) more

theorem readTree_closed (s : List Char) (result : Tree Phrase × List Char)
    (hhead : s.head? = some ']') : readTree s ≠ .ok result := by
  obtain ⟨rest, rfl⟩ := List.head?_eq_some_iff.mp hhead
  rw [readTree_eq, readValueWith, trimStart_cons_of_not_isBlank (by decide)]
  simp [isWordStart, stopBefore]

theorem readEntry_closed (s : List Char) (result : (String × Tree Phrase) × List Char)
    (hhead : s.head? = some '}') : readEntry readTree s ≠ .ok result := by
  obtain ⟨rest, rfl⟩ := List.head?_eq_some_iff.mp hhead
  simp [readEntry, readName, isWordStart, stopBefore, bind, Except.bind]

/-- In an array a value is read behind other items. -/
theorem exists_readTree_array {passed : List Char} (hpassed : Passed readTree passed) :
    ∃ next, ∀ s, (trimStart s).head? ≠ some ']' →
      readTree ('[' :: (passed ++ s)) = readTree s >>= next := by
  obtain ⟨next, hnext⟩ :=
    hpassed.exists_readSequence shrinks_readTree extends_readTree readTree_closed
  refine ⟨fun read => (next read).map fun items => (treeOfItems items.1, items.2), ?_⟩
  intro s hs
  have harray : readTree ('[' :: (passed ++ s)) =
      (readSequence ']' readTree (passed ++ s)).map
        fun items => (treeOfItems items.1, items.2) := by
    rw [readTree_eq]
    simp [readValueWith, readSequence]
  rw [harray, hnext s hs, readTree_trimStart]
  cases readTree s <;> rfl

/-- In an object a value is read behind other entries and its own name. -/
theorem exists_readTree_object {passed name : List Char}
    (hpassed : Passed (readEntry readTree) passed) (hname : Stands readName ':' name) :
    ∃ next, ∀ s, readTree ('{' :: (passed ++ (name ++ ':' :: s))) = readTree s >>= next := by
  obtain ⟨next, hnext⟩ := hpassed.exists_readSequence shrinks_readTree.readEntry
    (fun more => extends_readEntry (extends_readTree more)) readEntry_closed
  obtain ⟨text, hread⟩ := hname.exists_read (by decide) fun _ => extends_readName
  refine ⟨fun read => (next ((text, read.1), read.2)).map
    fun entries => (.map (Entries.ofList entries.1), entries.2), ?_⟩
  intro s
  obtain ⟨rest, htext, hcolon⟩ := hread s
  have hobject : readTree ('{' :: (passed ++ (name ++ ':' :: s))) =
      (readSequence '}' (readEntry readTree) (passed ++ (name ++ ':' :: s))).map
        fun entries => (.map (Entries.ofList entries.1), entries.2) := by
    rw [readTree_eq]
    simp [readValueWith, readSequence]
  have hentry : readEntry readTree (trimStart (name ++ ':' :: s)) =
      readTree s >>= fun read => .ok ((text, read.1), read.2) := by
    simp [readEntry, htext, hcolon, expect, bind, Except.bind]
  have hopen : (trimStart (name ++ ':' :: s)).head? ≠ some '}' := by
    intro hhead
    obtain ⟨tail, htail⟩ := List.head?_eq_some_iff.mp hhead
    rw [htail] at htext
    simp [readName, isWordStart, stopBefore] at htext
  rw [hobject, hnext _ hopen, hentry]
  cases readTree s <;> rfl

/-! ## Headers -/

/-- A text that does not begin like a header has none. -/
theorem readHeader_of_not_prefix (hs : ¬"export".toList <+: trimStart s) :
    readHeader s = .ok s := by
  have hnone : List.isPrefixOf? ['e', 'x', 'p', 'o', 'r', 't'] (trimStart s) = none := by
    cases hsome : List.isPrefixOf? ['e', 'x', 'p', 'o', 'r', 't'] (trimStart s) with
    | none => rfl
    | some rest => exact absurd ⟨rest, List.isPrefixOf?_eq_some_iff_append_eq.mp hsome⟩ hs
  rw [readHeader, hnone]

/-- A header is read behind any white space, and with any between its words. -/
theorem readHeader_header (hfront : ∀ c ∈ front, isBlank c = true)
    (hgap : ∀ c ∈ gap, isBlank c = true) (s : List Char) :
    readHeader (front ++ "export".toList ++ gap ++ "default".toList ++ s) = .ok s := by
  have hexport : trimStart (front ++ "export".toList ++ gap ++ "default".toList ++ s) =
      "export".toList ++ (gap ++ ("default".toList ++ s)) := by
    simp only [List.append_assoc]
    rw [trimStart_append_of_blank hfront]
    exact trimStart_cons_of_not_isBlank (by decide)
  have hdefault : trimStart (gap ++ ("default".toList ++ s)) = "default".toList ++ s := by
    rw [trimStart_append_of_blank hgap]
    exact trimStart_cons_of_not_isBlank (by decide)
  have hfirst : List.isPrefixOf? ['e', 'x', 'p', 'o', 'r', 't']
      ("export".toList ++ (gap ++ ("default".toList ++ s))) =
        some (gap ++ ("default".toList ++ s)) := rfl
  have hsecond : List.isPrefixOf? ['d', 'e', 'f', 'a', 'u', 'l', 't']
      ("default".toList ++ s) = some s := rfl
  simp only [readHeader, hexport, hfirst, hdefault, hsecond]

/-! ## Places of values -/

/-- What stands in front of a value. -/
inductive Leads : List Char → Prop
  /-- Nothing: the value is the source. -/
  | start : Leads []
  /-- The header of a module. -/
  | header {front gap : List Char} (hfront : ∀ c ∈ front, isBlank c = true)
      (hgap : ∀ c ∈ gap, isBlank c = true) :
      Leads (front ++ "export".toList ++ gap ++ "default".toList)
  /-- White space. -/
  | blank {front : List Char} {c : Char} (hfront : Leads front) (hc : isBlank c = true) :
      Leads (front ++ [c])
  /-- The opening bracket of an array and some items. -/
  | array {front passed : List Char} (hfront : Leads front)
      (hpassed : Passed readTree passed) : Leads (front ++ '[' :: passed)
  /-- The opening brace of an object, some entries, and the name of the value. -/
  | object {front passed name : List Char} (hfront : Leads front)
      (hpassed : Passed (readEntry readTree) passed) (hname : Stands readName ':' name) :
      Leads (front ++ '{' :: (passed ++ (name ++ [':'])))

/-- A text that closes no array at its place, and is not taken for a header where
nothing stands in front of it. -/
structure Opens (front s : List Char) : Prop where
  /-- It is no closing bracket. -/
  item : (trimStart s).head? ≠ some ']'
  /-- It begins no header. -/
  plain : (∀ c ∈ front, isBlank c = true) → ¬"export".toList <+: trimStart s

/-- A text that begins with punctuation can stand anywhere. -/
theorem opens_cons {c : Char} (hblank : isBlank c = false) (hbracket : c ≠ ']')
    (hletter : c ≠ 'e') (rest : List Char) : Opens front (c :: rest) where
  item := by
    rw [trimStart_cons_of_not_isBlank hblank]
    simpa using hbracket
  plain := by
    intro _ hbegins
    rw [trimStart_cons_of_not_isBlank hblank, show "export".toList = 'e' :: "xport".toList from rfl,
      List.cons_prefix_cons] at hbegins
    exact hletter hbegins.1.symm

/-- Letters that are read as part of a longer word are part of that word. -/
theorem prefix_of_prefix_append {letters word rest : List Char}
    (hletters : ∀ c ∈ letters, isWordChar c = true)
    (hrest : ∀ c ∈ rest.head?, isWordChar c = false) (hbegins : letters <+: word ++ rest) :
    letters <+: word := by
  rcases List.prefix_or_prefix_of_prefix hbegins (List.prefix_append word rest) with
    hshort | ⟨more, rfl⟩
  · exact hshort
  · cases more with
    | nil => simp
    | cons c more =>
      obtain ⟨behind, hbehind⟩ := (List.prefix_append_right_inj word).mp hbegins
      have hc := hrest c (by simp [← hbehind])
      rw [hletters c (by simp)] at hc
      cases hc

/-- A word that does not begin like a header can stand anywhere. -/
theorem opens_word {word rest : List Char} (hword : IsWord word)
    (hplain : (∀ c ∈ front, isBlank c = true) → ¬"export".toList <+: word)
    (hrest : ∀ c ∈ rest.head?, isWordChar c = false) : Opens front (word ++ rest) := by
  obtain ⟨⟨first, hfirst, hstart⟩, -⟩ := hword
  obtain ⟨others, rfl⟩ := List.head?_eq_some_iff.mp hfirst
  have hvisible : isBlank first = false := isBlank_of_isWordChar (by simp [isWordChar, hstart])
  have htrim : trimStart (first :: others ++ rest) = first :: others ++ rest :=
    trimStart_cons_of_not_isBlank hvisible
  constructor
  · rw [htrim]
    rintro hbracket
    rw [show first = ']' by simpa using hbracket] at hstart
    exact absurd hstart (by decide)
  · rw [htrim]
    intro hblank hbegins
    exact hplain hblank (prefix_of_prefix_append (List.all_eq_true.mp (by decide)) hrest hbegins)

/-- Reading a source is reading the value that is needed at a place of it, and going on
with the outcome. -/
theorem exists_readSource_of_leads (hfront : Leads front) :
    ∃ next, ∀ s, Opens front s → readSource (front ++ s) = readTree s >>= next := by
  induction hfront with
  | start =>
    refine ⟨fun read => (readFooter read.2).map fun _ => read.1, fun s hs => ?_⟩
    rw [List.nil_append, readSource_eq, readHeader_of_not_prefix (hs.plain (by simp))]
    rfl
  | header hfront hgap =>
    refine ⟨fun read => (readFooter read.2).map fun _ => read.1, fun s _ => ?_⟩
    rw [readSource_eq, readHeader_header hfront hgap]
    rfl
  | @blank front c _ hc ih =>
    obtain ⟨next, hnext⟩ := ih
    refine ⟨next, fun s hs => ?_⟩
    have hopens : Opens front (c :: s) := by
      refine ⟨?_, fun hblank => ?_⟩ <;> rw [trimStart_cons_of_isBlank hc]
      · exact hs.item
      · refine hs.plain fun d hd => ?_
        rcases List.mem_append.mp hd with hd | hd
        · exact hblank d hd
        · rwa [List.mem_singleton.mp hd]
    have hskip : readTree (c :: s) = readTree s := by
      rw [← readTree_trimStart, trimStart_cons_of_isBlank hc, readTree_trimStart]
    rw [List.append_assoc, List.singleton_append, hnext _ hopens, hskip]
  | @array front passed _ hpassed ih =>
    obtain ⟨next, hnext⟩ := ih
    obtain ⟨inner, hinner⟩ := exists_readTree_array hpassed
    refine ⟨fun read => inner read >>= next, fun s hs => ?_⟩
    rw [List.append_assoc, List.cons_append,
      hnext _ (opens_cons (by decide) (by decide) (by decide) _), hinner s hs.item]
    cases readTree s <;> rfl
  | @object front passed name _ hpassed hname ih =>
    obtain ⟨next, hnext⟩ := ih
    obtain ⟨inner, hinner⟩ := exists_readTree_object hpassed hname
    refine ⟨fun read => inner read >>= next, fun s hs => ?_⟩
    have hsplit : front ++ '{' :: (passed ++ (name ++ [':'])) ++ s =
        front ++ '{' :: (passed ++ (name ++ ':' :: s)) := by
      simp
    rw [hsplit, hnext _ (opens_cons (by decide) (by decide) (by decide) _), hinner s]
    cases readTree s <;> rfl

end Phrasebook.Script

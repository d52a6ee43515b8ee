import Phrasebook.Proofs.Script.Sequences

/-!
# Trees of phrases read back

Not every expression is read as a tree of phrases.  The ones that are consist of
texts, functions of the renderer, arrays, objects and scalars, and what each of them
stands for depends on its parts alone.  From the source of such an expression
reading gives this tree, at any indentation and whatever follows.  Only scalars need
something behind them that keeps them apart: every other source ends with a
character that closes it.

Main results:

- Definition `Denotes`: the tree that an expression stands for.
- Theorem `exists_head_source`: a source starts with something visible that closes
  no array and no object.
- Theorem `readValue_source`: the source of an expression is read as its tree, and
  reading stops right behind it.
-/

namespace Phrasebook.Script

open Text

/-! ## What expressions stand for -/

/-- The tree of phrases that an expression stands for. -/
inductive Denotes : Expr → Tree Phrase → Prop where
  /-- A string is a fixed phrase. -/
  | fixed (text : String) :
      Denotes (.literal (.string text)) (.cases (.single (.fixed text)))
  /-- A function of the renderer is a phrase with placeholders. -/
  | interpolated (i : Interpolation) :
      Denotes (.ofSegments i.segments i.keys) (.cases (.single (.interpolated i)))
  /-- An array is a list, or the plural group of its phrases. -/
  | array (parts : List (Expr × Tree Phrase))
      (hparts : ∀ part ∈ parts, Denotes part.1 part.2) :
      Denotes (.array (parts.map Prod.fst)) (treeOfItems (parts.map Prod.snd))
  /-- An object is a map in which the last entry of a name counts. -/
  | object (parts : List (String × Expr × Tree Phrase))
      (hparts : ∀ part ∈ parts, Denotes part.2.1 part.2.2) :
      Denotes (.object (parts.map fun part => (part.1, part.2.1)))
        (.map (Entries.ofList (parts.map fun part => (part.1, part.2.2))))
  /-- A scalar stands for itself when its number reads back. -/
  | data (value : Scalar) (hback : ∀ n, value = .number n → n.ReadsBack) :
      Denotes (.literal (.scalar value)) (.data value)

/-! ## One value by its first character -/

section Values

variable {item : Reader Fault (Tree Phrase)} {s rest : List Char}

theorem readValueWith_trimStart (s : List Char) :
    readValueWith item (trimStart s) = readValueWith item s := by
  simp only [readValueWith, trimStart_trimStart]

theorem readValueWith_string {text : String}
    (hstring : readString ('"' :: s) = .ok (text, rest)) :
    readValueWith item ('"' :: s) = .ok (.cases (.single (.fixed text)), rest) := by
  simp only [readValueWith, trimStart_cons_of_not_isBlank, isBlank_punctuation, if_true,
    hstring]
  rfl

theorem readValueWith_array {items : List (Tree Phrase)}
    (hitems : readItems ']' item (s.length + 1) s = .ok (items, rest)) :
    readValueWith item ('[' :: s) = .ok (treeOfItems items, rest) := by
  simp only [readValueWith, trimStart_cons_of_not_isBlank, isBlank_punctuation,
    Char.reduceEq, if_true, if_false, hitems]
  rfl

theorem readValueWith_object {entries : List (String × Tree Phrase)}
    (hentries : readItems '}' (readEntry item) (s.length + 1) s = .ok (entries, rest)) :
    readValueWith item ('{' :: s) = .ok (.map (Entries.ofList entries), rest) := by
  simp only [readValueWith, trimStart_cons_of_not_isBlank, isBlank_punctuation,
    Char.reduceEq, if_true, if_false, hentries]
  rfl

theorem readValueWith_number {c : Char} {n : Number} (hc : c = '-' ∨ c.isDigit = true)
    (hnumber : readNumber (c :: s) = .ok (n, rest)) :
    readValueWith item (c :: s) = .ok (.data (.number n), rest) := by
  have hvisible : isBlank c = false := by
    rcases hc with rfl | hdigit
    · decide
    · exact isBlank_of_isDigit hdigit
  have hother : c ≠ '"' ∧ c ≠ '[' ∧ c ≠ '{' := by
    refine ⟨?_, ?_, ?_⟩ <;> rintro rfl <;> simp at hc
  simp only [readValueWith, trimStart_cons_of_not_isBlank hvisible, hother.1, hother.2.1,
    hother.2.2, hc, if_true, if_false, hnumber]
  rfl

/-- A word does not start with a digit. -/
theorem isDigit_of_isWordStart {c : Char} (hc : isWordStart c = true) :
    c.isDigit = false := by
  rw [Bool.eq_false_iff]
  intro hdigit
  have hcode : 48 ≤ c.toNat ∧ c.toNat ≤ 57 := Char.isDigit_iff_toNat.mp hdigit
  simp only [isWordStart, Bool.or_eq_true, decide_eq_true_eq, isAlpha_iff_toNat] at hc
  rcases hc with (hletter | rfl) | rfl
  · omega
  · exact absurd hdigit (by decide)
  · exact absurd hdigit (by decide)

theorem readValueWith_word {c : Char} (hc : isWordStart c = true) :
    readValueWith item (c :: s) = readWordValue (c :: s) := by
  have hvisible : isBlank c = false := isBlank_of_isWordChar (by simp [isWordChar, hc])
  have hother : c ≠ '"' ∧ c ≠ '[' ∧ c ≠ '{' ∧ c ≠ '-' := by
    refine ⟨?_, ?_, ?_, ?_⟩ <;> rintro rfl <;> revert hc <;> decide
  simp only [readValueWith, trimStart_cons_of_not_isBlank hvisible, hother.1, hother.2.1,
    hother.2.2.1, hother.2.2.2, isDigit_of_isWordStart hc, hc, if_true, if_false,
    Bool.false_eq_true, or_self]

end Values

/-! ## Phrases and scalars -/

variable {item : Reader Fault (Tree Phrase)}

theorem source_string (level : UInt64) (text : String) :
    (Expr.literal (.string text)).source level = (Json.quote text).toList := by
  simp [Expr.source, Json.text]

theorem source_scalar (level : UInt64) (value : Scalar) :
    (Expr.literal (.scalar value)).source level = value.text.toList := by
  simp [Expr.source, Json.text]

/-- Segments and keys are printed as a function of the renderer. -/
theorem source_ofSegments (level : UInt64) (i : Interpolation) :
    (Expr.ofSegments i.segments i.keys).source level =
      functionSource rendererName.toList i.lead i.rest := by
  have hholes := holesSource_eq_templateSource level i.lead i.rest
  simp only [Expr.ofSegments, Expr.source, Expr.levelBehind, paramsSource, functionSource,
    ← hholes]
  simp

/-- A fixed phrase is read from its source, whatever follows it. -/
theorem readValueWith_fixed (text : String) (rest : List Char) :
    readValueWith item ((Json.quote text).toList ++ rest) =
      .ok (.cases (.single (.fixed text)), rest) := by
  have hread := readString_quote text rest
  rw [Json.toList_quote] at hread ⊢
  exact readValueWith_string hread

/-- The name of the renderer can be a parameter. -/
theorem isParameter_rendererName : IsParameter rendererName.toList :=
  ⟨⟨⟨'i', rfl, rfl⟩, List.all_eq_true.mp (by decide)⟩, by decide, by decide, by decide⟩

/-- A function of the renderer is read from its source, whatever follows it. -/
theorem readValueWith_function (i : Interpolation) (rest : List Char) :
    readValueWith item (functionSource rendererName.toList i.lead i.rest ++ rest) =
      .ok (.cases (.single (.interpolated i)), rest) := by
  have hword := readWordValue_function isParameter_rendererName i.lead i.rest rest
  exact (readValueWith_word (by decide)).trans hword

/-- A scalar is read from its text in front of anything that cannot go on with it. -/
theorem readValueWith_scalar {value : Scalar}
    (hback : ∀ n, value = .number n → n.ReadsBack) {rest : List Char}
    (hrest : Separate rest) :
    readValueWith item (value.text.toList ++ rest) = .ok (.data value, rest) := by
  cases value with
  | null =>
    have hword := readWordValue_scalar (Or.inr (Or.inr ⟨rfl, rfl⟩)) hrest
    exact (readValueWith_word (by decide)).trans hword
  | bool value =>
    cases value with
    | true =>
      have hword := readWordValue_scalar (Or.inl ⟨rfl, rfl⟩) hrest
      exact (readValueWith_word (by decide)).trans hword
    | false =>
      have hword := readWordValue_scalar (Or.inr (Or.inl ⟨rfl, rfl⟩)) hrest
      exact (readValueWith_word (by decide)).trans hword
  | number n =>
    have hnumber := readNumber_text (hback n rfl) fun c hc => (hrest c hc).2
    obtain ⟨c, s, htext, hc⟩ := exists_head_text n
    rw [Scalar.text]
    rw [htext] at hnumber ⊢
    exact readValueWith_number hc hnumber

/-! ## Where sources start -/

/-- The text of a scalar starts with a character of words or of numbers. -/
theorem exists_head_scalar (value : Scalar) :
    ∃ c s, value.text.toList = c :: s ∧ isBlank c = false ∧ c ≠ ']' ∧ c ≠ '}' ∧
      c ≠ 'e' := by
  cases value with
  | null => exact ⟨'n', _, rfl, by decide⟩
  | bool value =>
    cases value with
    | true => exact ⟨'t', _, rfl, by decide⟩
    | false => exact ⟨'f', _, rfl, by decide⟩
  | number n =>
    obtain ⟨c, s, htext, hc⟩ := exists_head_text n
    refine ⟨c, s, htext, ?_⟩
    rcases hc with rfl | hdigit
    · decide
    · refine ⟨isBlank_of_isDigit hdigit, ?_, ?_, ?_⟩ <;> rintro rfl <;> simp at hdigit

/-- A source starts with something visible that closes no array and no object, and
that no module header starts with. -/
theorem exists_head_source {expr : Expr} {tree : Tree Phrase} (hexpr : Denotes expr tree)
    (level : UInt64) :
    ∃ c s, expr.source level = c :: s ∧ isBlank c = false ∧ c ≠ ']' ∧ c ≠ '}' ∧
      c ≠ 'e' := by
  cases hexpr with
  | fixed text =>
    exact ⟨'"', _, (source_string level text).trans (Json.toList_quote text), by decide⟩
  | interpolated i => exact ⟨'i', _, source_ofSegments level i, by decide⟩
  | array parts hparts => exact ⟨'[', _, source_array level _, by decide⟩
  | object parts hparts =>
    obtain ⟨front, ending, -, -, hsource⟩ := exists_source_object level
      (parts.map fun part => (part.1, part.2.1))
    exact ⟨'{', _, hsource, by decide⟩
  | data value hback =>
    rw [source_scalar]
    exact exists_head_scalar value

/-! ## Arrays and objects -/

/-- An expression whose source is read as its tree in front of anything separate can
stand in a sequence. -/
theorem reads_source {expr : Expr} {tree : Tree Phrase} (hexpr : Denotes expr tree)
    {level : UInt64} {close : Char} (hclose : close = ']' ∨ close = '}')
    (hreads : ∀ rest, Separate rest → item (expr.source level ++ rest) = .ok (tree, rest)) :
    Reads close item (expr.source level) tree where
  visible := by
    obtain ⟨c, s, hsource, hvisible, hbracket, hbrace, -⟩ := exists_head_source hexpr level
    refine ⟨c, s, hsource, hvisible, ?_⟩
    rcases hclose with rfl | rfl
    · exact hbracket
    · exact hbrace
  reads := hreads

/-- An entry is read from its source when its value is. -/
theorem reads_entrySource {expr : Expr} {tree : Tree Phrase} (hexpr : Denotes expr tree)
    {level : UInt64} (name : String) (hspace : ∀ s, item (trimStart s) = item s)
    (hreads : ∀ rest, Separate rest → item (expr.source level ++ rest) = .ok (tree, rest)) :
    Reads '}' (readEntry item) (entrySource level (name, expr)) (name, tree) where
  visible := by
    refine ⟨'"', _, by rw [entrySource, Json.toList_quote]; rfl, ?_, ?_⟩
    · simp
    · simp
  reads := by
    intro rest hrest
    obtain ⟨c, s, hsource, hvisible, -⟩ := exists_head_source hexpr level
    have hname := readString_quote name (':' :: ' ' :: (expr.source level ++ rest))
    have hvalue : item (' ' :: (expr.source level ++ rest)) = .ok (tree, rest) := by
      rw [← hreads rest hrest, ← hspace (' ' :: _), hsource, List.cons_append,
        trimStart_cons_of_isBlank isBlank_space, trimStart_cons_of_not_isBlank hvisible]
    rw [Json.toList_quote] at hname
    simp only [entrySource, Json.toList_quote, List.cons_append, List.append_assoc,
      List.nil_append] at hname ⊢
    simp [readEntry, readName, hname, bind, Except.bind, expect, hvalue]

/-- An array is read from its source when its items are. -/
theorem readValue_array {parts : List (Expr × Tree Phrase)}
    (hparts : ∀ part ∈ parts, Denotes part.1 part.2) {level : UInt64} {depth : Nat}
    (hreads : ∀ place ∈ placed Prod.fst level parts, ∀ rest, Separate rest →
      readValue depth (place.2.1.source place.1 ++ rest) = .ok (place.2.2, rest))
    (rest : List Char) :
    readValue (depth + 1) ((Expr.array (parts.map Prod.fst)).source level ++ rest) =
      .ok (treeOfItems (parts.map Prod.snd), rest) := by
  let places := placed Prod.fst level parts
  let source := fun place : UInt64 × Expr × Tree Phrase => place.2.1.source place.1
  have hplaces : ∀ place ∈ places, Denotes place.2.1 place.2.2 :=
    fun place hplace => hparts place.2 (mem_of_mem_placed hplace)
  have htrees : (places.map fun place => place.2.2) = parts.map Prod.snd := by
    rw [← map_snd_placed Prod.fst level parts, List.map_map]
    rfl
  let inner := sequenceSource (places.map fun place => ([' '], source place)) ++
    ([] ++ ']' :: rest)
  have hsome : ∀ item ∈ places.map (fun place => ([' '], source place)), item.2 ≠ [] := by
    intro item hitem
    obtain ⟨place, hplace, rfl⟩ := List.mem_map.mp hitem
    obtain ⟨c, s, hsource, -⟩ := exists_head_source (hplaces place hplace) place.1
    simp [source, hsource]
  have hbudget : places.length < inner.length + 1 := by
    have hlength := length_items_le hsome
    simp only [List.length_map] at hlength
    simp only [inner, List.length_append]
    omega
  have hread : readItems ']' (readValue depth) (inner.length + 1) ([] ++ inner) =
      .ok (places.map fun place => place.2.2, rest) :=
    readItems_sequence (Or.inl rfl) (by simp) (fun _ _ => List.all_eq_true.mp (by decide))
      (fun place hplace => reads_source (hplaces place hplace) (Or.inl rfl)
        (hreads place hplace)) hbudget (by simp) rest
  have hsource : (Expr.array (parts.map Prod.fst)).source level ++ rest = '[' :: inner := by
    simp [source_array, placed_map, inner, source, places, Function.comp_def]
  rw [hsource, ← htrees]
  exact readValueWith_array hread

/-- An object is read from its source when its values are. -/
theorem readValue_object {parts : List (String × Expr × Tree Phrase)}
    (hparts : ∀ part ∈ parts, Denotes part.2.1 part.2.2) {level : UInt64} {depth : Nat}
    (hreads : ∀ place ∈ placed (fun part => part.2.1) (deeper level) parts,
      ∀ rest, Separate rest →
        readValue depth (place.2.2.1.source place.1 ++ rest) = .ok (place.2.2.2, rest))
    (rest : List Char) :
    readValue (depth + 1)
        ((Expr.object (parts.map fun part => (part.1, part.2.1))).source level ++ rest) =
      .ok (.map (Entries.ofList (parts.map fun part => (part.1, part.2.2))), rest) := by
  let places := placed (fun part : String × Expr × Tree Phrase => part.2.1) (deeper level)
    parts
  let source := fun place : UInt64 × String × Expr × Tree Phrase =>
    entrySource place.1 (place.2.1, place.2.2.1)
  have hplaces : ∀ place ∈ places, Denotes place.2.2.1 place.2.2.2 :=
    fun place hplace => hparts place.2 (mem_of_mem_placed hplace)
  have htrees : (places.map fun place => (place.2.1, place.2.2.2)) =
      parts.map fun part => (part.1, part.2.2) := by
    rw [← map_snd_placed (fun part => part.2.1) (deeper level) parts, List.map_map]
    rfl
  obtain ⟨front, ending, hfront, hending, hsource⟩ :=
    exists_source_object level (parts.map fun part => (part.1, part.2.1))
  let inner := front ++ (sequenceSource (places.map fun place =>
    (lineBreak place.1, source place)) ++ (ending ++ '}' :: rest))
  have hsome : ∀ item ∈ places.map (fun place => (lineBreak place.1, source place)),
      item.2 ≠ [] := by
    intro item hitem
    obtain ⟨place, -, rfl⟩ := List.mem_map.mp hitem
    simp [source, entrySource, Json.toList_quote]
  have hbudget : places.length < inner.length + 1 := by
    have hlength := length_items_le hsome
    simp only [List.length_map] at hlength
    simp only [inner, List.length_append]
    omega
  have hspace : ∀ s, readValue depth (trimStart s) = readValue depth s := by
    intro s
    cases depth with
    | zero => rfl
    | succ depth => exact readValueWith_trimStart s
  have hread : readItems '}' (readEntry (readValue depth)) (inner.length + 1) inner =
      .ok (places.map fun place => (place.2.1, place.2.2.2), rest) :=
    readItems_sequence (Or.inr rfl) hending (fun _ _ c hc => isBlank_of_mem_lineBreak hc)
      (fun place hplace => reads_entrySource (hplaces place hplace) place.2.1 hspace
        (hreads place hplace)) hbudget hfront rest
  have hwhole : (Expr.object (parts.map fun part => (part.1, part.2.1))).source level ++
      rest = '{' :: inner := by
    rw [hsource]
    simp [placed_map, inner, source, places, Function.comp_def]
  rw [hwhole, ← htrees]
  exact readValueWith_object hread

/-- The source of an item of an array is shorter than that of the array. -/
theorem length_source_item {items : List Expr} {level : UInt64} {place : UInt64 × Expr}
    (hplace : place ∈ placed id level items) :
    (place.2.source place.1).length < ((Expr.array items).source level).length := by
  have hitem := List.mem_map_of_mem
    (f := fun place : UInt64 × Expr => ([' '], place.2.source place.1)) hplace
  have hlength := length_le_sequenceSource hitem
  dsimp only at hlength
  simp only [source_array, List.length_append, List.length_cons]
  omega

/-- The source of a value of an object is shorter than that of the object. -/
theorem length_source_entry {entries : List (String × Expr)} {level : UInt64}
    {place : UInt64 × String × Expr}
    (hplace : place ∈ placed Prod.snd (deeper level) entries) :
    (place.2.2.source place.1).length < ((Expr.object entries).source level).length := by
  obtain ⟨front, ending, -, -, hsource⟩ := exists_source_object level entries
  have hentry := List.mem_map_of_mem (f := fun place : UInt64 × String × Expr =>
    (lineBreak place.1, entrySource place.1 place.2)) hplace
  have hlength := length_le_sequenceSource hentry
  dsimp only at hlength
  have hvalue : (place.2.2.source place.1).length ≤ (entrySource place.1 place.2).length := by
    simp only [entrySource, List.length_append]
    omega
  simp only [hsource, List.length_append, List.length_cons]
  omega

/-! ## Whole trees -/

/-- The source of an expression is read as its tree, and reading stops right behind
it.  What follows matters behind scalars alone. -/
theorem readValue_source {expr : Expr} {tree : Tree Phrase} (hexpr : Denotes expr tree) :
    ∀ level depth rest, (expr.source level).length ≤ depth →
      ((∃ value, tree = .data value) → Separate rest) →
      readValue depth (expr.source level ++ rest) = .ok (tree, rest) := by
  -- A source has a character at least, so one level of depth is always left.
  have hdeeper : ∀ {level : UInt64} {depth : Nat} {expr : Expr} {tree : Tree Phrase},
      Denotes expr tree → (expr.source level).length ≤ depth →
        ∃ less, depth = less + 1 := by
    intro level depth expr tree hexpr hdepth
    obtain ⟨c, s, hsource, -⟩ := exists_head_source hexpr level
    simp only [hsource, List.length_cons] at hdepth
    exact ⟨depth - 1, by omega⟩
  induction hexpr with
  | fixed text =>
    intro level depth rest hdepth _
    obtain ⟨depth, rfl⟩ := hdeeper (Denotes.fixed text) hdepth
    rw [source_string]
    exact readValueWith_fixed text rest
  | interpolated i =>
    intro level depth rest hdepth _
    obtain ⟨depth, rfl⟩ := hdeeper (Denotes.interpolated i) hdepth
    rw [source_ofSegments]
    exact readValueWith_function i rest
  | array parts hparts ih =>
    intro level depth rest hdepth _
    obtain ⟨depth, rfl⟩ := hdeeper (Denotes.array parts hparts) hdepth
    refine readValue_array hparts ?_ rest
    intro place hplace rest hrest
    have hitem : (place.1, place.2.1) ∈ placed id level (parts.map Prod.fst) := by
      rw [placed_map]
      exact List.mem_map_of_mem (f := fun place => (place.1, place.2.1)) hplace
    have hshorter : (place.2.1.source place.1).length < _ := length_source_item hitem
    exact ih place.2 (mem_of_mem_placed hplace) place.1 depth rest (by omega) fun _ => hrest
  | object parts hparts ih =>
    intro level depth rest hdepth _
    obtain ⟨depth, rfl⟩ := hdeeper (Denotes.object parts hparts) hdepth
    refine readValue_object hparts ?_ rest
    intro place hplace rest hrest
    have hentry : (place.1, place.2.1, place.2.2.1) ∈
        placed Prod.snd (deeper level) (parts.map fun part => (part.1, part.2.1)) := by
      rw [placed_map]
      exact List.mem_map_of_mem (f := fun place => (place.1, place.2.1, place.2.2.1)) hplace
    have hshorter : (place.2.2.1.source place.1).length < _ := length_source_entry hentry
    exact ih place.2 (mem_of_mem_placed hplace) place.1 depth rest (by omega) fun _ => hrest
  | data value hback =>
    intro level depth rest hdepth hseparate
    obtain ⟨depth, rfl⟩ := hdeeper (Denotes.data value hback) hdepth
    rw [source_scalar]
    exact readValueWith_scalar hback (hseparate ⟨value, rfl⟩)

end Phrasebook.Script

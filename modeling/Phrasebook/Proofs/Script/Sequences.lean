import Phrasebook.Proofs.Script.Functions
import Phrasebook.Proofs.Text.Longer

/-!
# Sequences read back

Arrays and objects are printed as sequences: items with a comma behind each but the
last, and white space between the parts.  The same reader reads both, and it finds
the items again whenever every item is read from its own source and cannot be
mistaken for the end of the sequence.

Main results:

- Definition `Reads`: a reader finds a value at the front of its source, whatever
  separate text follows.
- Theorem `readItems_succ_eq_ok_iff`: what one step of reading a sequence does.
- Theorem `readItems_sequence`: a printed sequence is read as its items, and reading
  stops right behind its closing character.
- Definition `placed`: the level of indentation at which each of some expressions is
  printed.
- Theorems `source_array` and `exists_source_object`: arrays and objects are printed
  as sequences.
-/

namespace Phrasebook.Script

open Text

variable {α : Type}

/-! ## Sources of sequences -/

/-- The text of a sequence of items, of which each but the first stands behind a comma
and its white space. -/
def sequenceSource : List (List Char × List Char) → List Char
  | [] => []
  | item :: items => item.2 ++ items.flatMap fun other => ',' :: other.1 ++ other.2

/-- Items behind the same white space are written with a comma and it between them. -/
theorem sequenceSource_eq_intercalate (blanks : List Char) (items : List (List Char)) :
    sequenceSource (items.map fun item => (blanks, item)) =
      (',' :: blanks).intercalate items := by
  cases items with
  | nil => rfl
  | cons first others =>
    induction others generalizing first with
    | nil => simp [sequenceSource]
    | cons second others ih =>
      rw [List.intercalate_cons_cons, ← ih]
      simp [sequenceSource]

/-- An item is not longer than the sequence it stands in. -/
theorem length_le_sequenceSource {item : List Char × List Char}
    {items : List (List Char × List Char)} (hitem : item ∈ items) :
    item.2.length ≤ (sequenceSource items).length := by
  cases items with
  | nil => simp at hitem
  | cons first others =>
    rw [sequenceSource, List.length_append]
    rcases List.mem_cons.mp hitem with rfl | hother
    · omega
    · have hpart : (',' :: item.1 ++ item.2).Sublist
          (others.flatMap fun other => ',' :: other.1 ++ other.2) := by
        rw [List.flatMap_def]
        exact List.sublist_flatten_of_mem (List.mem_map_of_mem hother)
      have hlength := hpart.length_le
      simp only [List.length_append, List.length_cons] at hlength
      omega

/-- A sequence has no more items than characters when no item is empty. -/
theorem length_items_le {items : List (List Char × List Char)}
    (hitems : ∀ item ∈ items, item.2 ≠ []) :
    items.length ≤ (sequenceSource items).length := by
  cases items with
  | nil => simp
  | cons first others =>
    have hfirst := List.length_pos_iff.mpr (hitems first (List.mem_cons_self ..))
    have hothers : others.length ≤
        (others.flatMap fun other => ',' :: other.1 ++ other.2).length := by
      induction others with
      | nil => simp
      | cons second others ih =>
        have hrest := ih fun item hitem => hitems item (by
          rcases List.mem_cons.mp hitem with rfl | hitem
          · simp
          · simp [hitem])
        simp only [List.flatMap_cons, List.length_append, List.length_cons] at hrest ⊢
        omega
    simp only [sequenceSource, List.length_append, List.length_cons]
    omega

/-! ## Reading a sequence -/

/-- A sequence is closed, or an item stands in it, and behind that either a comma and
the rest of the sequence or its end. -/
theorem readItems_succ_eq_ok_iff {close : Char} (hclose : close ≠ ',')
    {item : Reader Fault α} {budget : Nat} {s rest : List Char} {items : List α} :
    readItems close item (budget + 1) s = .ok (items, rest) ↔
      (trimStart s = close :: rest ∧ items = []) ∨
      ∃ first behind, (trimStart s).head? ≠ some close ∧
        item (trimStart s) = .ok (first, behind) ∧
        ((∃ next others, trimStart behind = ',' :: next ∧
            readItems close item budget next = .ok (others, rest) ∧ items = first :: others) ∨
          (trimStart behind = close :: rest ∧ items = [first])) := by
  rw [readItems]
  by_cases hend : (trimStart s).head? = some close
  · obtain ⟨behind, hbehind⟩ := List.head?_eq_some_iff.mp hend
    simp [hbehind, and_comm, eq_comm]
  · have hopen : trimStart s ≠ close :: rest := by
      rintro hs
      simp [hs] at hend
    simp only [hopen, false_and, false_or, ne_eq, hend, not_false_eq_true, true_and]
    constructor
    · intro hread
      obtain ⟨⟨first, behind⟩, hfirst, hread⟩ := ok_of_bind hread
      refine ⟨first, behind, hfirst, ?_⟩
      simp only at hread
      split at hread
      · rename_i next hnext
        obtain ⟨⟨others, left⟩, hothers, hread⟩ := ok_of_bind hread
        simp only [Except.ok.injEq, Prod.mk.injEq] at hread
        obtain ⟨rfl, rfl⟩ := hread
        exact Or.inl ⟨next, others, hnext, hothers, rfl⟩
      · obtain ⟨left, hleft, hread⟩ := ok_of_bind hread
        simp only [Except.ok.injEq, Prod.mk.injEq] at hread
        obtain ⟨rfl, rfl⟩ := hread
        exact Or.inr ⟨expect_eq_ok_iff.mp hleft, rfl⟩
    · rintro ⟨first, behind, hfirst, ⟨next, others, hnext, hothers, rfl⟩ | ⟨hbehind, rfl⟩⟩
      · simp [hfirst, hnext, hothers, bind, Except.bind]
      · simp [hfirst, hbehind, hclose, expect, bind, Except.bind]

/-- A reader finds a value at the front of its source, whatever separate text
follows.  The source starts with something visible that does not close the sequence
it stands in. -/
structure Reads (close : Char) (item : Reader Fault α) (source : List Char)
    (value : α) : Prop where
  /-- The source cannot be mistaken for the end of the sequence. -/
  visible : ∃ c s, source = c :: s ∧ isBlank c = false ∧ c ≠ close
  /-- The value is read, and reading stops behind its source. -/
  reads : ∀ rest, Separate rest → item (source ++ rest) = .ok (value, rest)

/-- White space in front of the closing character does not matter. -/
theorem separate_ending {close : Char} (hclose : close = ']' ∨ close = '}')
    {ending : List Char} (hending : ∀ c ∈ ending, isBlank c = true) (rest : List Char) :
    Separate (ending ++ close :: rest) ∧
      trimStart (ending ++ close :: rest) = close :: rest := by
  have hvisible : isBlank close = false := by
    rcases hclose with rfl | rfl <;> decide
  constructor
  · cases ending with
    | nil =>
      rcases hclose with rfl | rfl <;> exact separate_punctuation rest (by simp)
    | cons c ending => exact separate_of_isBlank _ (hending c (List.mem_cons_self ..))
  · rw [trimStart_append_of_blank hending, trimStart_cons_of_not_isBlank hvisible]

/-- A printed sequence is read as its items, in order, and reading stops right
behind the closing character. -/
theorem readItems_sequence {close : Char} (hclose : close = ']' ∨ close = '}')
    {item : Reader Fault α} {ending : List Char}
    (hending : ∀ c ∈ ending, isBlank c = true) {β : Type} {blanks source : β → List Char}
    {value : β → α} {parts : List β}
    (hblanks : ∀ part ∈ parts, ∀ c ∈ blanks part, isBlank c = true)
    (hparts : ∀ part ∈ parts, Reads close item (source part) (value part))
    {budget : Nat} (hbudget : parts.length < budget) {front : List Char}
    (hfront : ∀ c ∈ front, isBlank c = true) (rest : List Char) :
    readItems close item budget (front ++
      (sequenceSource (parts.map fun part => (blanks part, source part)) ++
        (ending ++ close :: rest))) =
        .ok (parts.map value, rest) := by
  obtain ⟨hseparate, htrim⟩ := separate_ending hclose hending rest
  have hcomma : close ≠ ',' := by
    rcases hclose with rfl | rfl <;> simp
  induction parts generalizing budget front with
  | nil =>
    obtain ⟨budget, rfl⟩ : ∃ smaller, budget = smaller + 1 :=
      ⟨budget - 1, by simp at hbudget; omega⟩
    rw [readItems_succ_eq_ok_iff hcomma]
    exact Or.inl ⟨by simp [sequenceSource, trimStart_append_of_blank hfront, htrim], rfl⟩
  | cons part parts ih =>
    obtain ⟨budget, rfl⟩ : ∃ smaller, budget = smaller + 1 :=
      ⟨budget - 1, by simp at hbudget; omega⟩
    obtain ⟨⟨c, s, hsource, hvisible, hopen⟩, hreads⟩ :=
      hparts part (List.mem_cons_self ..)
    have hstart : ∀ tail, trimStart (front ++ (source part ++ tail)) = source part ++ tail := by
      intro tail
      rw [trimStart_append_of_blank hfront, hsource, List.cons_append,
        trimStart_cons_of_not_isBlank hvisible]
    have hhead : ∀ tail, (source part ++ tail).head? ≠ some close := by
      intro tail
      simpa [hsource] using hopen
    rw [List.map_cons, sequenceSource, List.append_assoc, readItems_succ_eq_ok_iff hcomma,
      hstart]
    cases parts with
    | nil => exact Or.inr ⟨value part, _, hhead _, hreads _ hseparate, Or.inr ⟨htrim, rfl⟩⟩
    | cons next parts =>
      let others := sequenceSource ((next :: parts).map fun part =>
        (blanks part, source part)) ++ (ending ++ close :: rest)
      have hothers : (next :: parts).length < budget := by
        simp at hbudget ⊢
        omega
      have hnext := hblanks next (List.mem_cons_of_mem _ (List.mem_cons_self ..))
      have hrest : readItems close item budget (blanks next ++ others) =
          .ok ((next :: parts).map value, rest) :=
        ih (fun part hpart => hblanks part (List.mem_cons_of_mem _ hpart))
          (fun part hpart => hparts part (List.mem_cons_of_mem _ hpart)) hothers hnext
      have htail : ((next :: parts).map fun part => (blanks part, source part)).flatMap
            (fun other => ',' :: other.1 ++ other.2) ++ (ending ++ close :: rest) =
          ',' :: (blanks next ++ others) := by
        simp [others, sequenceSource]
      rw [htail]
      exact Or.inr ⟨value part, ',' :: (blanks next ++ others), hhead _,
        hreads _ (separate_punctuation _ (Or.inl rfl)),
        Or.inl ⟨blanks next ++ others, _, by simp, hrest, rfl⟩⟩

/-! ## Levels of parts -/

section

variable {β : Type}

/-- Parts that are printed one behind the other from a level on, each with the level of
indentation that it is printed at. -/
def placed (expr : β → Expr) (level : UInt64) : List β → List (UInt64 × β)
  | [] => []
  | part :: parts => (level, part) :: placed expr ((expr part).levelBehind level) parts

@[simp] theorem map_snd_placed (expr : β → Expr) (level : UInt64) (parts : List β) :
    (placed expr level parts).map Prod.snd = parts := by
  induction parts generalizing level with
  | nil => rfl
  | cons part parts ih => rw [placed, List.map_cons, ih]

theorem mem_of_mem_placed {expr : β → Expr} {level : UInt64} {parts : List β}
    {place : UInt64 × β} (hplace : place ∈ placed expr level parts) : place.2 ∈ parts := by
  rw [← map_snd_placed expr level parts]
  exact List.mem_map_of_mem hplace

/-- Where a part is printed depends on the expressions of the parts alone. -/
theorem placed_map {γ : Type} (f : γ → β) (expr : β → Expr) (level : UInt64)
    (parts : List γ) :
    placed expr level (parts.map f) =
      (placed (fun part => expr (f part)) level parts).map fun place =>
        (place.1, f place.2) := by
  induction parts generalizing level with
  | nil => rfl
  | cons part parts ih => rw [List.map_cons, placed, ih, placed, List.map_cons]

/-- Parts that leave the level as it is are all printed at the same one. -/
theorem placed_of_steady {expr : β → Expr} {level : UInt64} {parts : List β}
    (hsteady : ∀ part ∈ parts, (expr part).levelBehind level = level) :
    placed expr level parts = parts.map fun part => (level, part) := by
  induction parts with
  | nil => rfl
  | cons part parts ih =>
    rw [placed, hsteady part List.mem_cons_self,
      ih fun other hother => hsteady other (List.mem_cons_of_mem _ hother), List.map_cons]

end

/-! ## Arrays and objects -/

theorem itemsSource_eq_flatMap (level : UInt64) (items : List Expr) :
    Expr.itemsSource level items =
      (placed id level items).flatMap fun place =>
        ',' :: [' '] ++ place.2.source place.1 := by
  induction items generalizing level with
  | nil => rfl
  | cons item items ih => simp [Expr.itemsSource, placed, ih]

/-- An array is printed as a sequence of its items. -/
theorem source_array (level : UInt64) (items : List Expr) :
    (Expr.array items).source level =
      '[' :: sequenceSource ((placed id level items).map fun place =>
        ([' '], place.2.source place.1)) ++ [']'] := by
  cases items with
  | nil => rfl
  | cons item items =>
    simp [Expr.source, sequenceSource, placed, itemsSource_eq_flatMap, List.flatMap_map]

/-- Items that leave the level as it is are joined by commas and spaces. -/
theorem source_array_of_steady {level : UInt64} {items : List Expr}
    (hsteady : ∀ item ∈ items, item.levelBehind level = level) :
    (Expr.array items).source level =
      '[' :: [',', ' '].intercalate (items.map (Expr.source level)) ++ [']'] := by
  have hplaced : placed id level items = items.map fun item => (level, item) :=
    placed_of_steady hsteady
  rw [source_array, hplaced, ← sequenceSource_eq_intercalate, List.map_map, List.map_map]
  rfl

/-- A line break and the indentation behind it. -/
def lineBreak (level : UInt64) : List Char :=
  '\n' :: indentation level.toNat

theorem isBlank_of_mem_lineBreak {level : UInt64} {c : Char} (hc : c ∈ lineBreak level) :
    isBlank c = true := by
  rcases List.mem_cons.mp hc with rfl | hc
  · decide
  · rw [List.eq_of_mem_replicate hc]
    decide

/-- The text of an entry of an object. -/
def entrySource (level : UInt64) (entry : String × Expr) : List Char :=
  (Json.quote entry.1).toList ++ [':', ' '] ++ entry.2.source level

theorem entriesSource_eq_flatMap (level : UInt64) (entries : List (String × Expr)) :
    Expr.entriesSource level entries =
      (placed Prod.snd level entries).flatMap fun place =>
        ',' :: lineBreak place.1 ++ entrySource place.1 place.2 := by
  induction entries generalizing level with
  | nil => rfl
  | cons entry entries ih =>
    obtain ⟨name, value⟩ := entry
    simp [Expr.entriesSource, placed, ih, entrySource, lineBreak]

/-- An object is printed as a sequence of its entries, each on a line of its own, with
white space at either end. -/
theorem exists_source_object (level : UInt64) (entries : List (String × Expr)) :
    ∃ front ending, (∀ c ∈ front, isBlank c = true) ∧ (∀ c ∈ ending, isBlank c = true) ∧
      (Expr.object entries).source level =
        '{' :: front ++ sequenceSource ((placed Prod.snd (deeper level) entries).map
          fun place => (lineBreak place.1, entrySource place.1 place.2)) ++ ending ++
            ['}'] := by
  cases entries with
  | nil => exact ⟨[], [], by simp, by simp, rfl⟩
  | cons entry entries =>
    obtain ⟨name, value⟩ := entry
    let inside := value.levelBehind (deeper level)
    refine ⟨lineBreak (deeper level),
      lineBreak (shallower (Expr.entriesLevelBehind inside entries)),
      fun c hc => isBlank_of_mem_lineBreak hc,
      fun c hc => isBlank_of_mem_lineBreak hc, ?_⟩
    simp [Expr.source, sequenceSource, placed, entriesSource_eq_flatMap, entrySource,
      lineBreak, inside, List.flatMap_map]

end Phrasebook.Script

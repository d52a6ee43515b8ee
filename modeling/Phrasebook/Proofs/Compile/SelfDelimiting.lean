import Phrasebook.Proofs.Compile.RoundTrip
import Phrasebook.Proofs.Script.Longer

/-!
# Truncated and continued sources

A compiled source says itself where it ends.  If it is cut off anywhere, what is left
is no source at all, so part of a bundle is never taken for a smaller bundle.  If
something follows it, this is refused unless it is white space around at most one
semicolon.

Main results:

- Theorem `readValue_of_truncated`: no value is read from a source that is cut off.
- Theorem `readSource_of_truncated_module`: no module is read that ends before its
  value does.
- Definition `SelfDelimiting`: the sources that say themselves where they end.
- Theorem `compile_selfDelimiting`: compiled templates and objects are refused when
  they are cut off, and what may follow them does not change what they are read as.
-/

namespace Phrasebook

open Script Text

/-! ## Sources that are cut off -/

section

variable {expr : Expr} {tree : Tree Phrase}

/-- The characters that values start with when they are not scalars. -/
def IsOpening (c : Char) : Prop :=
  c = '"' ∨ c = '[' ∨ c = '{' ∨ c = 'i'

/-- The source of anything but a scalar shows by its first character that it is none. -/
theorem exists_opening_source (hexpr : Denotes expr tree) (hdata : ∀ value, tree ≠ .data value)
    (level : UInt64) : ∃ c s, expr.source level = c :: s ∧ IsOpening c := by
  cases hexpr with
  | fixed text =>
    exact ⟨'"', _, (source_string level text).trans (Json.toList_quote text), Or.inl rfl⟩
  | interpolated i =>
    exact ⟨'i', _, source_ofSegments level i, Or.inr (Or.inr (Or.inr rfl))⟩
  | array parts hparts => exact ⟨'[', _, source_array level _, Or.inr (Or.inl rfl)⟩
  | object parts hparts =>
    obtain ⟨front, ending, -, -, hsource⟩ := exists_source_object level
      (parts.map fun part => (part.1, part.2.1))
    exact ⟨'{', _, hsource, Or.inr (Or.inr (Or.inl rfl))⟩
  | data value hback => exact absurd rfl (hdata value)

/-- A word that starts with the name of the renderer is none of a scalar. -/
theorem ne_data_of_readWordValue {s rest : List Char} {found : Tree Phrase}
    (hread : readWordValue ('i' :: s) = .ok (found, rest)) (value : Scalar) :
    found ≠ .data value := by
  have hword : (wordRun ('i' :: s)).1 = 'i' :: s.takeWhile isWordChar := by
    simp [wordRun, show isWordChar 'i' = true by decide]
  simp only [readWordValue, hword, List.cons.injEq, Char.reduceEq, false_and, if_false]
    at hread
  obtain ⟨read, -, heq⟩ := ok_of_map hread
  simp only [Prod.mk.injEq] at heq
  simp [← heq.1]

/-- Text that starts like a string, an array, an object or a function is not read as
a scalar. -/
theorem ne_data_of_opening {item : Reader Fault (Tree Phrase)} {c : Char}
    (hc : IsOpening c) {s rest : List Char} {found : Tree Phrase}
    (hread : readValueWith item (c :: s) = .ok (found, rest)) (value : Scalar) :
    found ≠ .data value := by
  rcases hc with rfl | rfl | rfl | rfl
  · simp only [readValueWith, trimStart_cons_of_not_isBlank, isBlank_punctuation, if_true]
      at hread
    obtain ⟨read, -, heq⟩ := ok_of_map hread
    simp only [Prod.mk.injEq] at heq
    simp [← heq.1]
  · simp only [readValueWith, trimStart_cons_of_not_isBlank, isBlank_punctuation,
      Char.reduceEq, if_true, if_false] at hread
    obtain ⟨read, -, heq⟩ := ok_of_map hread
    simp only [Prod.mk.injEq] at heq
    rw [← heq.1]
    unfold treeOfItems
    split <;> simp
  · simp only [readValueWith, trimStart_cons_of_not_isBlank, isBlank_punctuation,
      Char.reduceEq, if_true, if_false] at hread
    obtain ⟨read, -, heq⟩ := ok_of_map hread
    simp only [Prod.mk.injEq] at heq
    simp [← heq.1]
  · rw [readValueWith_word (by decide)] at hread
    exact ne_data_of_readWordValue hread value

/-- No value is read from nothing. -/
theorem readValue_nil (depth : Nat) (result : Tree Phrase × List Char) :
    readValue depth [] ≠ .ok result := by
  cases depth <;> simp [readValue, readValueWith, stopAtEnd]

/-- No value is read from a source that is cut off. -/
theorem readValue_of_truncated (hexpr : Denotes expr tree)
    (hdata : ∀ value, tree ≠ .data value) {front back : List Char}
    (hsource : expr.source 0 = front ++ back) (hback : back ≠ []) (depth : Nat)
    (result : Tree Phrase × List Char) : readValue depth front ≠ .ok result := by
  intro hread
  obtain ⟨found, rest⟩ := result
  cases front with
  | nil => exact readValue_nil depth _ hread
  | cons c front =>
    obtain ⟨first, s, hfirst, hopening⟩ := exists_opening_source hexpr hdata 0
    have hc : IsOpening c := by
      rw [hfirst, List.cons_append, List.cons.injEq] at hsource
      exact hsource.1 ▸ hopening
    have hfound : ∀ value, found ≠ .data value := by
      cases depth with
      | zero => simp [readValue, stopAtEnd] at hread
      | succ depth => exact ne_data_of_opening hc hread
    -- The whole source would be read like its front, with more left behind.
    have hscalar : ¬∃ value, tree = .data value := by
      rintro ⟨value, hvalue⟩
      exact hdata value hvalue
    have hlonger := readValue_append (Nat.le_max_left depth (expr.source 0).length) hread
      (Or.inr hfound) back
    have hwhole := readValue_source hexpr 0 (max depth (expr.source 0).length) []
      (Nat.le_max_right ..) (fun hvalue => absurd hvalue hscalar)
    rw [← hsource] at hlonger
    rw [List.append_nil, hlonger, Except.ok.injEq, Prod.mk.injEq] at hwhole
    exact hback (List.append_eq_nil_iff.mp hwhole.2).2

/-! ## Headers that are cut off -/

/-- A word alone is no value unless it is one of a scalar. -/
theorem readValue_of_word {word : List Char} (hword : IsWord word)
    (htrue : word ≠ "true".toList) (hfalse : word ≠ "false".toList)
    (hnull : word ≠ "null".toList) (depth : Nat) (result : Tree Phrase × List Char) :
    readValue depth word ≠ .ok result := by
  intro hread
  obtain ⟨⟨first, hfirst, hstart⟩, hchars⟩ := hword
  have hrun : wordRun word = (word, []) := by
    simpa using @wordRun_append word [] hchars (by simp)
  cases depth with
  | zero => simp [readValue, stopAtEnd] at hread
  | succ depth =>
    obtain ⟨s, hs⟩ := List.head?_eq_some_iff.mp hfirst
    have hvalue : readWordValue word = .ok result := by
      rw [hs] at hread ⊢
      exact (readValueWith_word hstart).symm.trans hread
    simp only [readWordValue, hrun, show ¬word = ['t', 'r', 'u', 'e'] from htrue,
      show ¬word = ['f', 'a', 'l', 's', 'e'] from hfalse,
      show ¬word = ['n', 'u', 'l', 'l'] from hnull, if_false] at hvalue
    obtain ⟨⟨i, behind⟩, hfunction, -⟩ := ok_of_map hvalue
    exact ne_nil_of_readFunction hfunction rfl

/-- A text that ends in the first word of a header has none. -/
theorem readHeader_of_short : ∀ count < 6,
    readHeader ("export default".toList.take count) =
      .ok ("export default".toList.take count) := by
  decide

/-- A header is refused when it ends before its second word does. -/
theorem readHeader_of_long : ∀ count < 14, 6 ≤ count →
    readHeader ("export default".toList.take count) =
      stopBefore .expectedDefault ("default".toList.take (count - 7)) := by
  decide

/-- The first letters of a header are a word, and none of a scalar. -/
theorem isWord_of_short : ∀ count < 6, 0 < count →
    IsWord ("export default".toList.take count) ∧
      "export default".toList.take count ≠ "true".toList ∧
      "export default".toList.take count ≠ "false".toList ∧
      "export default".toList.take count ≠ "null".toList := by
  intro count hcount hpos
  have hchars : ∀ count < 6, ("export default".toList.take count).all isWordChar = true := by
    decide
  obtain ⟨less, rfl⟩ : ∃ less, count = less + 1 := ⟨count - 1, by omega⟩
  have htake : "export default".toList.take (less + 1) =
      'e' :: "xport default".toList.take less := rfl
  refine ⟨⟨⟨'e', rfl, by decide⟩, List.all_eq_true.mp (hchars _ hcount)⟩, ?_, ?_, ?_⟩ <;>
    rw [htake] <;> simp

/-- A source without a value is refused. -/
theorem readSource_of_no_value {text rest : List Char} (hheader : readHeader text = .ok rest)
    (hvalue : ∀ result, readValue (text.length + 1) rest ≠ .ok result)
    (found : Tree Phrase) : readSource text ≠ .ok found := by
  intro hread
  rw [readSource, hheader] at hread
  obtain ⟨_, hrest, hread⟩ := ok_of_bind hread
  obtain ⟨result, hresult, -⟩ := ok_of_bind hread
  rw [← Except.ok.inj hrest] at hresult
  exact hvalue result hresult

/-- A header that is cut off is refused. -/
theorem readSource_of_truncated_header {count : Nat} (hcount : count < 14)
    (found : Tree Phrase) : readSource ("export default".toList.take count) ≠ .ok found := by
  by_cases hshort : count < 6
  · apply readSource_of_no_value (readHeader_of_short count hshort)
    by_cases hzero : count = 0
    · subst hzero
      exact readValue_nil _
    · obtain ⟨hword, htrue, hfalse, hnull⟩ := isWord_of_short count hshort (by omega)
      exact readValue_of_word hword htrue hfalse hnull _
  · intro hread
    obtain ⟨rest, hheader, -⟩ := ok_of_bind hread
    rw [readHeader_of_long count hcount (by omega)] at hheader
    cases hheader

/-- A source that is cut off is refused. -/
theorem readSource_of_truncated (hexpr : Denotes expr tree)
    (hdata : ∀ value, tree ≠ .data value) {front back : List Char}
    (hsource : expr.source 0 = front ++ back) (hback : back ≠ []) (found : Tree Phrase) :
    readSource front ≠ .ok found := by
  have hheader : readHeader front = .ok front := by
    cases front with
    | nil => rfl
    | cons c front =>
      obtain ⟨first, s, hfirst, hvisible, -, -, hc⟩ := exists_head_source hexpr 0
      rw [hfirst, List.cons_append, List.cons.injEq] at hsource
      rw [← hsource.1]
      exact readHeader_of_head hvisible hc
  exact readSource_of_no_value hheader
    (readValue_of_truncated hexpr hdata hsource hback _) found

/-- A module that is cut off before the end of its value is refused. -/
theorem readSource_of_truncated_module (hexpr : Denotes expr tree)
    (hdata : ∀ value, tree ≠ .data value) {front back : List Char}
    (hmodule : "export default ".toList ++ expr.source 0 = front ++ back) (hback : back ≠ [])
    (found : Tree Phrase) : readSource front ≠ .ok found := by
  have hsplit : "export default".toList ++ (' ' :: expr.source 0) = front ++ back := by
    rw [← hmodule]
    rfl
  rcases List.append_eq_append_iff.mp hsplit with ⟨behind, hfront, hbehind⟩ |
    ⟨behind, hheader, -⟩
  · -- The header is complete, so the value is cut off.
    rw [hfront]
    apply readSource_of_no_value (readHeader_module behind)
    cases behind with
    | nil => exact readValue_nil _
    | cons c behind =>
      rw [List.cons_append, List.cons.injEq] at hbehind
      obtain ⟨rfl, hvalue⟩ := hbehind
      intro result hread
      rw [readValue, ← readValueWith_trimStart, trimStart_cons_of_isBlank isBlank_space,
        readValueWith_trimStart] at hread
      exact readValue_of_truncated hexpr hdata hvalue hback (_ + 1) result hread
  · -- The header itself is cut off, unless nothing but the value is missing.
    by_cases hlength : front.length < 14
    · have htake : front = "export default".toList.take front.length := by
        rw [hheader]
        simp
      rw [htake]
      exact readSource_of_truncated_header hlength found
    · have hnil : behind = [] := by
        have hlengths := congrArg List.length hheader
        simp at hlengths
        exact List.eq_nil_of_length_eq_zero (by omega)
      rw [hnil, List.append_nil] at hheader
      rw [← hheader, ← List.append_nil "export default".toList]
      exact readSource_of_no_value (readHeader_module []) (readValue_nil _) found

/-! ## Sources as a whole -/

/-- A source that says itself where it ends, alone and as the value of a module. -/
structure SelfDelimiting (source module : String) : Prop where
  /-- The source is refused when it is cut off. -/
  truncated : ∀ front back, source = front ++ back → back ≠ "" →
    ∃ error, Tree.ofSource front = .error error
  /-- The module is refused when it ends before its value does. -/
  truncatedModule : ∀ front back, module = front ++ back →
    front.length < ("export default " ++ source).length →
    ∃ error, Tree.ofSource front = .error error
  /-- Nothing but white space around at most one semicolon is accepted behind it. -/
  continued : ∀ more,
    (∃ tree, Tree.ofSource (source ++ more) = .ok tree) ↔ IsFooter more.toList
  /-- What is accepted behind it does not change what it is read as. -/
  same : ∀ more tree, Tree.ofSource (source ++ more) = .ok tree →
    Tree.ofSource source = .ok tree

/-- The text of an expression is continued by a footer and by nothing else. -/
theorem ofSource_text_append (hexpr : Denotes expr tree) (hdata : ∀ value, tree ≠ .data value)
    {more : String} {found : Tree Phrase} :
    Tree.ofSource (expr.text ++ more) = .ok found ↔ IsFooter more.toList ∧ found = tree := by
  have hread : readSource (expr.text ++ more).toList =
      (readFooter more.toList).map fun _ => tree := by
    rw [String.toList_append, Expr.toList_text]
    refine readSource_source hexpr ?_
    rintro ⟨value, hvalue⟩
    exact absurd hvalue (hdata value)
  rw [ofSource_eq_ok_iff, hread, ← readFooter_eq_ok_iff]
  constructor
  · intro hfound
    obtain ⟨_, hfooter, hsame⟩ := ok_of_map hfound
    exact ⟨hfooter, hsame.symm⟩
  · rintro ⟨hfooter, rfl⟩
    rw [hfooter]
    rfl

/-- The text of anything but a scalar says itself where it ends. -/
theorem selfDelimiting_text (hexpr : Denotes expr tree) (hdata : ∀ value, tree ≠ .data value) :
    SelfDelimiting expr.text expr.moduleText where
  truncated := by
    intro front back hsource hback
    have hsplit := congrArg String.toList hsource
    rw [Expr.toList_text, String.toList_append] at hsplit
    exact exists_error_of_ne_ok
      (readSource_of_truncated hexpr hdata hsplit (by simpa using hback))
  truncatedModule := by
    intro front back hmodule hlength
    have hsplit := congrArg String.toList hmodule
    rw [Expr.toList_moduleText, String.toList_append] at hsplit
    rw [← String.length_toList, ← String.length_toList, String.toList_append,
      Expr.toList_text] at hlength
    obtain ⟨behind, hbehind⟩ := List.prefix_of_prefix_length_le ⟨back.toList, hsplit.symm⟩
      (List.prefix_append _ _) (Nat.le_of_lt hlength)
    have hsome : behind ≠ [] := by
      rintro rfl
      rw [← hbehind, List.append_nil] at hlength
      exact Nat.lt_irrefl _ hlength
    exact exists_error_of_ne_ok
      (readSource_of_truncated_module hexpr hdata hbehind.symm hsome)
  continued := by
    intro more
    constructor
    · rintro ⟨found, hfound⟩
      exact ((ofSource_text_append hexpr hdata).mp hfound).1
    · intro hfooter
      exact ⟨tree, (ofSource_text_append hexpr hdata).mpr ⟨hfooter, rfl⟩⟩
  same := by
    intro more found hfound
    rw [((ofSource_text_append hexpr hdata).mp hfound).2]
    exact ofSource_text hexpr

end

/-! ## Compiled inputs -/

/-- Templates and objects are no scalars. -/
theorem emitValue_ne_data {input : Json} (hfit : input.kind = .string ∨ input.kind = .object)
    (value : Scalar) : (treeBackend.emitValue input).result ≠ .data value := by
  cases input with
  | scalar found =>
    rcases found with _ | _ | _ <;> simp [Json.kind] at hfit
  | string template =>
    rw [Backend.emitValue, emitCases_treeBackend]
    simp
  | array items => simp [Json.kind] at hfit
  | object entries =>
    rw [Backend.emitValue]
    simp [treeBackend]

/-- Templates and objects are compiled into sources that say themselves where they
end.  Integers always read back, so only doubles have to be asked for. -/
theorem compile_selfDelimiting (input : Json)
    (hdoubles : ∀ x : Double, .double x ∈ input.numbers → (Number.double x).ReadsBack)
    (hfit : input.kind = .string ∨ input.kind = .object) :
    ∃ source module, input.compile = .ok source ∧ input.compileModule = .ok module ∧
      SelfDelimiting source.result module.result := by
  have hdenotes := denotes_emitValue input (Number.readsBack_of_doubles hdoubles)
  exact ⟨_, _, compile_of_fit hfit, compileModule_of_fit hfit,
    selfDelimiting_text hdenotes (emitValue_ne_data hfit)⟩

/-- An input whose source ends in a scalar, a list and a brace. -/
def countedInput : Json :=
  .object [("title", .string "{n} of {total}"),
    ("steps", .array [.bool true, .number (.integer ⟨12, by decide⟩)])]

theorem countedInput_selfDelimiting :
    (∀ x : Double, .double x ∈ countedInput.numbers → (Number.double x).ReadsBack) ∧
      (countedInput.kind = .string ∨ countedInput.kind = .object) ∧
      ∃ source module, countedInput.compile = .ok source ∧
        countedInput.compileModule = .ok module ∧
        SelfDelimiting source.result module.result := by
  have hdoubles : ∀ x : Double, .double x ∈ countedInput.numbers →
      (Number.double x).ReadsBack := by
    intro x hx
    simp [countedInput, Json.numbers, Json.entriesNumbers, Json.itemsNumbers] at hx
  exact ⟨hdoubles, Or.inr rfl, compile_selfDelimiting countedInput hdoubles (Or.inr rfl)⟩

end Phrasebook

import Phrasebook.Proofs.Script.Templates
import Phrasebook.Script.Reader

/-!
# Functions and words read back

A phrase with placeholders is printed as a function whose body tags a template with
the function's own parameter.  The reader accepts any word as a parameter, as long
as it is none of the words that stand for scalars.

Main results:

- Theorem `readFunction_append`: behind its parameter a function is read by reading its
  template literal.
- Theorem `readFunction_source`: behind its parameter a function is read as the
  interpolation of its template.
- Theorem `readWordValue_function`: a function with any parameter that is no scalar
  is read as that interpolation.
- Theorem `readWordValue_scalar`: the words of the scalars are read as scalars in
  front of anything that cannot go on with a word.
-/

namespace Phrasebook.Script

open Text

/-! ## Characters of words and numbers -/

theorem isBlank_of_isWordChar {c : Char} (hc : isWordChar c = true) :
    isBlank c = false := by
  simp only [isWordChar, isWordStart, Bool.or_eq_true, decide_eq_true_eq] at hc
  rcases hc with ((hc | rfl) | rfl) | hc
  · exact isBlank_of_isAlphanum (by simp [Char.isAlphanum, hc])
  · decide
  · decide
  · exact isBlank_of_isDigit hc

theorem isBlank_of_isNumberChar {c : Char} (hc : isNumberChar c = true) :
    isBlank c = false := by
  simp only [isNumberChar, Bool.or_eq_true, decide_eq_true_eq] at hc
  rcases hc with ((((hc | rfl) | rfl) | rfl) | rfl) | rfl
  · exact isBlank_of_isDigit hc
  all_goals decide

/-- No word goes on with the punctuation of functions. -/
@[simp] theorem isWordChar_punctuation :
    isWordChar ' ' = false ∧ isWordChar '\x60' = false := by
  decide

/-- A text that neither a word nor a number in front of it would go on into. -/
def Separate (rest : List Char) : Prop :=
  ∀ c ∈ rest.head?, isWordChar c = false ∧ isNumberChar c = false

theorem separate_nil : Separate [] := by
  simp [Separate]

theorem separate_cons {c : Char} (rest : List Char) (hword : isWordChar c = false)
    (hnumber : isNumberChar c = false) : Separate (c :: rest) := by
  simp [Separate, hword, hnumber]

/-- Punctuation behind a value keeps it apart from what follows. -/
theorem separate_punctuation {c : Char} (rest : List Char)
    (hc : c = ',' ∨ c = ';' ∨ c = ']' ∨ c = '}') : Separate (c :: rest) := by
  rcases hc with rfl | rfl | rfl | rfl <;> exact separate_cons rest (by decide) (by decide)

/-- White space keeps what stands before it apart from what follows. -/
theorem separate_of_isBlank {c : Char} (rest : List Char) (hblank : isBlank c = true) :
    Separate (c :: rest) := by
  apply separate_cons
  · rw [Bool.eq_false_iff]
    intro hword
    simp [isBlank_of_isWordChar hword] at hblank
  · rw [Bool.eq_false_iff]
    intro hnumber
    simp [isBlank_of_isNumberChar hnumber] at hblank

/-! ## Expected characters -/

/-- A character is expected where the text starts with it. -/
theorem expect_eq_ok_iff {c : Char} {s rest : List Char} :
    expect c s = .ok rest ↔ s = c :: rest := by
  cases s with
  | nil => simp [expect, stopAtEnd]
  | cons first s =>
    by_cases hfirst : first = c
    · simp [expect, hfirst]
    · simp [expect, hfirst, stopBefore]

/-! ## Words -/

/-- A word: characters of words, the first of which may start one. -/
def IsWord (word : List Char) : Prop :=
  (∃ c ∈ word.head?, isWordStart c = true) ∧ ∀ c ∈ word, isWordChar c = true

/-- A word is found again in front of anything that cannot go on with it. -/
theorem wordRun_append {word rest : List Char} (hword : ∀ c ∈ word, isWordChar c = true)
    (hrest : ∀ c ∈ rest.head?, isWordChar c = false) :
    wordRun (word ++ rest) = (word, rest) := by
  rw [wordRun, takeWhile_append_of_stop hword hrest, dropWhile_append_of_stop hword hrest]

/-- White space ends a word, and so does what is no part of words behind it. -/
theorem isWordChar_head_of_blank {gap : List Char} (hgap : ∀ c ∈ gap, isBlank c = true) {c : Char}
    (hc : isWordChar c = false) (rest : List Char) :
    ∀ d ∈ (gap ++ c :: rest).head?, isWordChar d = false := by
  cases gap with
  | nil => simpa using hc
  | cons blank gap =>
    rintro d hd
    obtain rfl : blank = d := by simpa using hd
    rw [Bool.eq_false_iff]
    intro hword
    have hblank := hgap blank (List.mem_cons_self ..)
    simp [isBlank_of_isWordChar hword] at hblank

/-- The word of a scalar is read as that scalar. -/
theorem readWordValue_scalar {word rest : List Char} {value : Scalar}
    (hvalue : (word = "true".toList ∧ value = .bool true) ∨
      (word = "false".toList ∧ value = .bool false) ∨
      (word = "null".toList ∧ value = .null)) (hrest : Separate rest) :
    readWordValue (word ++ rest) = .ok (.data value, rest) := by
  have hrun : ∀ c ∈ word, isWordChar c = true := by
    rcases hvalue with ⟨rfl, -⟩ | ⟨rfl, -⟩ | ⟨rfl, -⟩ <;>
      exact List.all_eq_true.mp (by decide)
  rw [readWordValue, wordRun_append hrun fun c hc => (hrest c hc).1]
  rcases hvalue with ⟨rfl, rfl⟩ | ⟨rfl, rfl⟩ | ⟨rfl, rfl⟩ <;> rfl

/-! ## Functions -/

/-- The source of a function with some parameter that stands for an interpolation. -/
def functionSource (param : List Char) (lead : String) (holes : List (Key × String)) :
    List Char :=
  param ++ " => ".toList ++ param ++ '\x60' :: templateSource lead holes ++ ['\x60']

/-- Behind its parameter a function is read by reading its template literal, with any
white space between its parts. -/
theorem readFunction_append {param before behind opening : List Char} (hparam : IsWord param)
    (hbefore : ∀ c ∈ before, isBlank c = true) (hbehind : ∀ c ∈ behind, isBlank c = true)
    (hopening : ∀ c ∈ opening, isBlank c = true) (s : List Char) :
    readFunction param (before ++ '=' :: '>' :: (behind ++ (param ++ (opening ++ '\x60' :: s)))) =
      readTemplateBody s := by
  obtain ⟨⟨first, hfirst, hstart⟩, hchars⟩ := hparam
  obtain ⟨word, rfl⟩ := List.head?_eq_some_iff.mp hfirst
  have hvisible : isBlank first = false := isBlank_of_isWordChar (by simp [isWordChar, hstart])
  have hequals : ∀ t, trimStart (before ++ '=' :: t) = '=' :: t := by
    intro t
    rw [trimStart_append_of_blank hbefore]
    exact trimStart_cons_of_not_isBlank (by decide)
  have hcall : ∀ t, trimStart (behind ++ first :: t) = first :: t := by
    intro t
    rw [trimStart_append_of_blank hbehind]
    exact trimStart_cons_of_not_isBlank hvisible
  have hrun : wordRun (first :: (word ++ (opening ++ '\x60' :: s))) =
      (first :: word, opening ++ '\x60' :: s) :=
    wordRun_append hchars (isWordChar_head_of_blank hopening (by decide) s)
  have hbacktick : trimStart (opening ++ '\x60' :: s) = '\x60' :: s := by
    rw [trimStart_append_of_blank hopening]
    exact trimStart_cons_of_not_isBlank (by decide)
  simp only [readFunction, hequals, expect, if_true, List.cons_append, hcall, hstart, hrun,
    readTemplate, hbacktick, bind, Except.bind]
  simp

/-- Behind its parameter a function is read as the interpolation of its template. -/
theorem readFunction_source {param : List Char} (hparam : IsWord param) (lead : String)
    (holes : List (Key × String)) (rest : List Char) :
    readFunction param (" => ".toList ++ param ++ '\x60' :: templateSource lead holes ++
      '\x60' :: rest) = .ok (⟨lead, holes⟩, rest) := by
  have hspace : ∀ c ∈ [' '], isBlank c = true := by simp
  have hread := readFunction_append hparam hspace hspace (by simp : ∀ c ∈ [], isBlank c = true)
    (templateSource lead holes ++ '\x60' :: rest)
  rw [readTemplateBody_source] at hread
  rw [← hread]
  simp

/-- A word that can be the parameter of a function: any but those of scalars. -/
structure IsParameter (param : List Char) : Prop where
  word : IsWord param
  ne_true : param ≠ "true".toList
  ne_false : param ≠ "false".toList
  ne_null : param ≠ "null".toList

/-- A parameter starts a function. -/
theorem readWordValue_parameter {param rest : List Char} (hparam : IsParameter param)
    (hrest : ∀ c ∈ rest.head?, isWordChar c = false) :
    readWordValue (param ++ rest) = (readFunction param rest).map fun read =>
      (.cases (.single (.interpolated read.1)), read.2) := by
  rw [readWordValue, wordRun_append hparam.word.2 hrest]
  simp only [show ¬param = ['t', 'r', 'u', 'e'] from hparam.ne_true,
    show ¬param = ['f', 'a', 'l', 's', 'e'] from hparam.ne_false,
    show ¬param = ['n', 'u', 'l', 'l'] from hparam.ne_null, if_false]

/-- A function is read as the interpolation of its template. -/
theorem readWordValue_function {param : List Char} (hparam : IsParameter param)
    (lead : String) (holes : List (Key × String)) (rest : List Char) :
    readWordValue (functionSource param lead holes ++ rest) =
      .ok (.cases (.single (.interpolated ⟨lead, holes⟩)), rest) := by
  have hsplit : functionSource param lead holes ++ rest = param ++ (" => ".toList ++ param ++
      '\x60' :: templateSource lead holes ++ '\x60' :: rest) := by
    simp [functionSource]
  rw [hsplit, readWordValue_parameter hparam (by simp), readFunction_source hparam.word]
  rfl

end Phrasebook.Script

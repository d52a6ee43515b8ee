import Mathlib.Data.List.DropRight
import Mathlib.Data.List.TakeWhile
import Phrasebook.Text.Blank

/-!
# Runs of characters

A run is the longest front of a text whose characters lie in a class.  Where a run
ends is decided by the first character outside the class, so it does not change
when the text goes on behind that character.

Main results:

- Theorems `takeWhile_append_of_stop` and `dropWhile_append_of_stop`: a run ends
  where something outside the class starts.
- Theorems `takeWhile_append_of_left` and `dropWhile_append_of_left`: a run that
  ended inside a text ends at the same place in a longer text.
- Theorems `trimStart_append_of_blank` and `trimStart_append_of_ne_nil`: the same
  for white space at the front.
- Theorem `trim_trim`: white space is dropped at both ends once and for all.
-/

namespace Phrasebook.Text

variable {p : Char → Bool} {run rest s : List Char}

/-! ## Runs with an end in sight -/

private theorem runs_of_head (hrest : ∀ c ∈ rest.head?, p c = false) :
    rest.takeWhile p = [] ∧ rest.dropWhile p = rest := by
  cases rest with
  | nil => simp
  | cons c rest =>
    have hc := hrest c (by simp)
    simp [hc]

/-- A run ends where something outside the class starts. -/
theorem takeWhile_append_of_stop (hrun : ∀ c ∈ run, p c = true)
    (hrest : ∀ c ∈ rest.head?, p c = false) : (run ++ rest).takeWhile p = run := by
  rw [List.takeWhile_append_of_pos hrun, (runs_of_head hrest).1, List.append_nil]

/-- What follows a run is everything from its end on. -/
theorem dropWhile_append_of_stop (hrun : ∀ c ∈ run, p c = true)
    (hrest : ∀ c ∈ rest.head?, p c = false) : (run ++ rest).dropWhile p = rest := by
  rw [List.dropWhile_append_of_pos hrun, (runs_of_head hrest).2]

/-! ## Runs in longer texts -/

/-- A run that ended inside a text is the same in a longer text. -/
theorem takeWhile_append_of_left (hleft : s.dropWhile p ≠ []) (more : List Char) :
    (s ++ more).takeWhile p = s.takeWhile p := by
  induction s with
  | nil => simp at hleft
  | cons c s ih =>
    by_cases hc : p c = true
    · have hs : s.dropWhile p ≠ [] := by simpa [hc] using hleft
      simp [hc, ih hs]
    · simp [hc]

/-- What followed a run inside a text is the front of what follows it in a longer
text. -/
theorem dropWhile_append_of_left (hleft : s.dropWhile p ≠ []) (more : List Char) :
    (s ++ more).dropWhile p = s.dropWhile p ++ more := by
  induction s with
  | nil => simp at hleft
  | cons c s ih =>
    by_cases hc : p c = true
    · have hs : s.dropWhile p ≠ [] := by simpa [hc] using hleft
      simp [hc, ih hs]
    · simp [hc]

/-! ## White space -/

/-- The printed characters of ASCII are visible. -/
theorem isBlank_eq_false_of_ascii {c : Char} (hlow : 0x20 < c.toNat)
    (hhigh : c.toNat < 0x7F) : isBlank c = false := by
  rw [Bool.eq_false_iff]
  intro hblank
  obtain ⟨block, hblock, hfirst, hlast⟩ := inBlocks_eq_true_iff.mp hblank
  simp only [blankBlocks, List.mem_cons, List.not_mem_nil, or_false] at hblock
  rcases hblock with rfl | rfl | rfl | rfl | rfl | rfl | rfl | rfl | rfl | rfl <;>
    simp only at hfirst hlast <;> omega

/-- The letters of ASCII by their code points. -/
theorem isAlpha_iff_toNat {c : Char} : c.isAlpha = true ↔
    (65 ≤ c.toNat ∧ c.toNat ≤ 90) ∨ (97 ≤ c.toNat ∧ c.toNat ≤ 122) := by
  change ((c.val ≥ 65 ∧ c.val ≤ 90 : Bool) || (c.val ≥ 97 && c.val ≤ 122)) = true ↔ _
  simp only [Bool.or_eq_true, Bool.and_eq_true, decide_eq_true_eq, ge_iff_le,
    UInt32.le_iff_toNat_le]
  rfl

/-- Letters and digits of ASCII are visible. -/
theorem isBlank_of_isAlphanum {c : Char} (hc : c.isAlphanum = true) :
    isBlank c = false := by
  have hcode : ((65 ≤ c.toNat ∧ c.toNat ≤ 90) ∨ (97 ≤ c.toNat ∧ c.toNat ≤ 122)) ∨
      (48 ≤ c.toNat ∧ c.toNat ≤ 57) := by
    rw [Char.isAlphanum, Bool.or_eq_true] at hc
    exact hc.imp isAlpha_iff_toNat.mp Char.isDigit_iff_toNat.mp
  exact isBlank_eq_false_of_ascii (by omega) (by omega)

theorem isBlank_of_isDigit {c : Char} (hc : c.isDigit = true) : isBlank c = false :=
  isBlank_of_isAlphanum (by simp [Char.isAlphanum, hc])

/-- The punctuation of scripts and templates is visible. -/
@[simp] theorem isBlank_punctuation :
    isBlank '"' = false ∧ isBlank ',' = false ∧ isBlank ':' = false ∧ isBlank '=' = false ∧
      isBlank '[' = false ∧ isBlank '\x60' = false ∧ isBlank '{' = false ∧
      isBlank '}' = false := by
  decide

@[simp] theorem isBlank_space : isBlank ' ' = true := by
  decide

/-- White space in front is dropped as a whole. -/
theorem trimStart_append_of_blank {blanks : List Char}
    (hblanks : ∀ c ∈ blanks, isBlank c = true) (s : List Char) :
    trimStart (blanks ++ s) = trimStart s :=
  List.dropWhile_append_of_pos hblanks

/-- Text that starts with something visible keeps its start. -/
theorem trimStart_eq_self (hvisible : ∀ c ∈ s.head?, isBlank c = false) :
    trimStart s = s :=
  (runs_of_head hvisible).2

/-- What is left after dropping white space starts with something visible. -/
theorem isBlank_head_trimStart (s : List Char) :
    ∀ c ∈ (trimStart s).head?, isBlank c = false := by
  intro c hc
  have hhead := List.head?_dropWhile_not isBlank s
  rw [show s.dropWhile isBlank = trimStart s from rfl, Option.mem_def.mp hc] at hhead
  exact hhead

@[simp] theorem trimStart_trimStart (s : List Char) :
    trimStart (trimStart s) = trimStart s :=
  trimStart_eq_self (isBlank_head_trimStart s)

theorem trimStart_eq_nil_iff {s : List Char} :
    trimStart s = [] ↔ ∀ c ∈ s, isBlank c = true :=
  List.dropWhile_eq_nil_iff

/-- Text is the white space at its start and what is left without it. -/
theorem exists_blank_trimStart (s : List Char) :
    ∃ front, s = front ++ trimStart s ∧ ∀ c ∈ front, isBlank c = true := by
  refine ⟨s.takeWhile isBlank, List.takeWhile_append_dropWhile.symm, ?_⟩
  intro c hc
  exact List.all_eq_true.mp List.all_takeWhile c hc

/-- Text behind something visible stays behind it. -/
theorem trimStart_append_of_ne_nil (hleft : trimStart s ≠ []) (more : List Char) :
    trimStart (s ++ more) = trimStart s ++ more :=
  dropWhile_append_of_left hleft more

/-- What is left without the white space at the end starts as before. -/
theorem trimEnd_prefix (s : List Char) : trimEnd s <+: s :=
  List.rdropWhile_prefix isBlank s

/-- Trimming a second time changes nothing. -/
theorem trim_trim (s : List Char) : trim (trim s) = trim s := by
  have hstart : trimStart (trim s) = trim s := by
    refine trimStart_eq_self fun c hc => isBlank_head_trimStart s c ?_
    obtain ⟨rest, hrest⟩ := List.head?_eq_some_iff.mp (Option.mem_def.mp hc)
    obtain ⟨more, hmore⟩ := trimEnd_prefix (trimStart s)
    rw [← hmore, show trimEnd (trimStart s) = c :: rest from hrest]
    rfl
  rw [trim, hstart]
  exact List.rdropWhile_idempotent isBlank (trimStart s)

end Phrasebook.Text

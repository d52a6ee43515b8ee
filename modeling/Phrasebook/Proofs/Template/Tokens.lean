import Phrasebook.Proofs.Text.Runs
import Phrasebook.Template.Token

/-!
# The grammar of tokens

Tokens are read by a small machine that skips white space and cuts runs.  This module
says which texts are tokens and what they stand for, without the machine, and proves
that the machine finds exactly these.

Main results:

- Definition `IsToken`: the texts that are tokens, with what they stand for.
- Theorem `token?_eq_some_iff`: a token is found at the front of a text exactly when
  the text starts with one.
- Theorem `literal?_eq_some_iff`: the same for literal tokens.
-/

namespace Phrasebook.Template

open Text

/-! ## The grammar -/

/-- A text in braces, with white space allowed at either side of what they hold. -/
def braced (before inner after : List Char) : List Char :=
  '{' :: before ++ inner ++ after ++ ['}']

/-- The texts that are tokens, with what they stand for.  A run of digits stands for a
place when its value fits 64 bits, every other run of name characters for a name. -/
inductive IsToken : List Char → Item → Prop where
  /-- A text in single quotes that holds no single quote. -/
  | literal {before content after : List Char} (hbefore : ∀ c ∈ before, isBlank c = true)
      (hafter : ∀ c ∈ after, isBlank c = true) (hcontent : '\'' ∉ content) :
      IsToken (braced before ('\'' :: content ++ ['\'']) after)
        (.literal (String.ofList content))
  /-- A run of digits that fits. -/
  | index {before digits after : List Char} (hbefore : ∀ c ∈ before, isBlank c = true)
      (hafter : ∀ c ∈ after, isBlank c = true) (hsome : digits ≠ [])
      (hdigits : ∀ c ∈ digits, c.isDigit = true)
      (hfits : Nat.ofDigitChars 10 digits 0 < 18446744073709551616) :
      IsToken (braced before digits after)
        (.placeholder (.index ⟨Nat.ofDigitChars 10 digits 0, hfits⟩))
  /-- Any other run of name characters. -/
  | named {before name after : List Char} (hbefore : ∀ c ∈ before, isBlank c = true)
      (hafter : ∀ c ∈ after, isBlank c = true) (hsome : name ≠ [])
      (hname : ∀ c ∈ name, isNameChar c = true)
      (hother : ¬((∀ c ∈ name, c.isDigit = true) ∧
        Nat.ofDigitChars 10 name 0 < 18446744073709551616)) :
      IsToken (braced before name after) (.placeholder (.named (String.ofList name)))

/-! ## What stands in braces -/

/-- Something is read in braces when it is read behind the white space in front of it
and leaves nothing but white space in front of the closing brace. -/
theorem braced?_eq_some_iff {α : Type} {inner : List Char → Option (α × List Char)}
    {s rest : List Char} {value : α} :
    braced? inner s = some (value, rest) ↔
      ∃ before t after, (∀ c ∈ before, isBlank c = true) ∧ (∀ c ∈ after, isBlank c = true) ∧
        s = '{' :: before ++ t ∧ trimStart t = t ∧
        inner t = some (value, after ++ '}' :: rest) := by
  constructor
  · intro hread
    unfold braced? at hread
    split at hread
    · rename_i s
      obtain ⟨before, hs, hbefore⟩ := exists_blank_trimStart s
      split at hread
      · rename_i found behind hinner
        obtain ⟨after, hbehind, hafter⟩ := exists_blank_trimStart behind
        split at hread
        · rename_i left hclose
          simp only [Option.some.injEq, Prod.mk.injEq] at hread
          rw [hclose] at hbehind
          refine ⟨before, trimStart s, after, hbefore, hafter, ?_, trimStart_trimStart s, ?_⟩
          · rw [List.cons_append, ← hs]
          · rw [hinner, hread.1, hbehind, hread.2]
        · simp at hread
      · simp at hread
    · simp at hread
  · rintro ⟨before, t, after, hbefore, hafter, rfl, ht, hinner⟩
    have hclose : trimStart (after ++ '}' :: rest) = '}' :: rest := by
      rw [trimStart_append_of_blank hafter]
      exact trimStart_cons_of_not_isBlank (by simp)
    simp [braced?, trimStart_append_of_blank hbefore, ht, hinner, hclose]

/-- A text in single quotes ends at the first of them. -/
theorem quoted?_eq_some_iff {s content rest : List Char} :
    quoted? s = some (content, rest) ↔
      s = '\'' :: content ++ '\'' :: rest ∧ '\'' ∉ content := by
  constructor
  · intro hread
    unfold quoted? at hread
    split at hread
    · rename_i t
      split at hread
      · rename_i quote behind hquote
        simp only [Option.some.injEq, Prod.mk.injEq] at hread
        obtain ⟨rfl, rfl⟩ := hread
        have hhead := List.head?_dropWhile_not (· != '\'') t
        rw [hquote] at hhead
        have hsame : quote = '\'' := by simpa using hhead
        have hsplit : t = t.takeWhile (· != '\'') ++ quote :: behind := by
          rw [← hquote, List.takeWhile_append_dropWhile]
        refine ⟨?_, ?_⟩
        · rw [hsame] at hsplit
          rw [List.cons_append, ← hsplit]
        · intro hmem
          have hother := List.all_eq_true.mp List.all_takeWhile _ hmem
          simp at hother
      · simp at hread
    · simp at hread
  · rintro ⟨rfl, hcontent⟩
    have hrun : ∀ c ∈ content, (c != '\'') = true := by
      intro c hc
      rw [bne_iff_ne]
      rintro rfl
      exact hcontent hc
    have hstop : ∀ c ∈ ('\'' :: rest).head?, (c != '\'') = false := by simp
    simp [quoted?, takeWhile_append_of_stop hrun hstop, dropWhile_append_of_stop hrun hstop]

/-- A run of name characters is found up to something else. -/
theorem name?_append {name rest : List Char} (hsome : name ≠ [])
    (hname : ∀ c ∈ name, isNameChar c = true)
    (hrest : ∀ c ∈ rest.head?, isNameChar c = false) :
    name? (name ++ rest) = some (name, rest) := by
  obtain ⟨c, s, rfl⟩ := List.exists_cons_of_ne_nil hsome
  simp only [name?, takeWhile_append_of_stop hname hrest, dropWhile_append_of_stop hname hrest]

/-- What is found as a run of name characters is one. -/
theorem of_name?_eq_some {s name rest : List Char} (hread : name? s = some (name, rest)) :
    s = name ++ rest ∧ name ≠ [] ∧ ∀ c ∈ name, isNameChar c = true := by
  unfold name? at hread
  split at hread
  · simp at hread
  · rename_i hsome
    simp only [Option.some.injEq, Prod.mk.injEq] at hread
    obtain ⟨rfl, rfl⟩ := hread
    exact ⟨List.takeWhile_append_dropWhile.symm, fun hnil => hsome hnil,
      fun c hc => List.all_eq_true.mp List.all_takeWhile c hc⟩

/-- The characters of names are visible. -/
theorem isBlank_of_isNameChar {c : Char} (hc : isNameChar c = true) : isBlank c = false := by
  simp only [isNameChar, Bool.or_eq_true, decide_eq_true_eq] at hc
  rcases hc with (hc | rfl) | rfl
  · exact isBlank_of_isAlphanum hc
  · decide
  · decide

/-! ## Tokens -/

/-- A literal token is found exactly where the text starts with one. -/
theorem literal?_eq_some_iff {s content rest : List Char} :
    literal? s = some (content, rest) ↔
      ∃ before after, (∀ c ∈ before, isBlank c = true) ∧ (∀ c ∈ after, isBlank c = true) ∧
        '\'' ∉ content ∧ s = braced before ('\'' :: content ++ ['\'']) after ++ rest := by
  rw [literal?, braced?_eq_some_iff]
  constructor
  · rintro ⟨before, t, after, hbefore, hafter, rfl, -, hquoted⟩
    obtain ⟨rfl, hcontent⟩ := quoted?_eq_some_iff.mp hquoted
    exact ⟨before, after, hbefore, hafter, hcontent, by simp [braced]⟩
  · rintro ⟨before, after, hbefore, hafter, hcontent, rfl⟩
    refine ⟨before, '\'' :: content ++ '\'' :: (after ++ '}' :: rest), after, hbefore, hafter,
      by simp [braced], ?_, quoted?_eq_some_iff.mpr ⟨rfl, hcontent⟩⟩
    exact trimStart_cons_of_not_isBlank (by decide)

section

variable {before name after rest : List Char}

/-- A name in braces is found as that name. -/
theorem braced?_name (hbefore : ∀ c ∈ before, isBlank c = true)
    (hafter : ∀ c ∈ after, isBlank c = true) (hsome : name ≠ [])
    (hname : ∀ c ∈ name, isNameChar c = true) :
    braced? name? (braced before name after ++ rest) = some (name, rest) := by
  have hstop : ∀ c ∈ (after ++ '}' :: rest).head?, isNameChar c = false := by
    intro c hc
    rw [Bool.eq_false_iff]
    intro hnamed
    cases after with
    | nil =>
      simp only [List.nil_append, List.head?_cons, Option.mem_def, Option.some.injEq] at hc
      exact absurd hnamed (by rw [← hc]; decide)
    | cons d after =>
      simp only [List.cons_append, List.head?_cons, Option.mem_def, Option.some.injEq] at hc
      have hblank := hafter d (List.mem_cons_self ..)
      rw [hc, isBlank_of_isNameChar hnamed] at hblank
      exact Bool.false_ne_true hblank
  have hstart : trimStart (name ++ (after ++ '}' :: rest)) =
      name ++ (after ++ '}' :: rest) := by
    obtain ⟨c, s, rfl⟩ := List.exists_cons_of_ne_nil hsome
    exact trimStart_cons_of_not_isBlank
      (isBlank_of_isNameChar (hname c (List.mem_cons_self ..)))
  exact braced?_eq_some_iff.mpr ⟨before, name ++ (after ++ '}' :: rest), after, hbefore,
    hafter, by simp [braced], hstart, name?_append hsome hname hstop⟩

/-- A name in braces is no literal token. -/
theorem literal?_name (hbefore : ∀ c ∈ before, isBlank c = true) (hsome : name ≠ [])
    (hname : ∀ c ∈ name, isNameChar c = true) :
    literal? (braced before name after ++ rest) = none := by
  obtain ⟨c, s, rfl⟩ := List.exists_cons_of_ne_nil hsome
  have hc : isNameChar c = true := hname c (List.mem_cons_self ..)
  have hquote : c ≠ '\'' := by
    rintro rfl
    exact absurd hc (by decide)
  have hstart : trimStart (before ++ (c :: s ++ after ++ ['}'] ++ rest)) =
      c :: s ++ after ++ ['}'] ++ rest := by
    rw [trimStart_append_of_blank hbefore]
    exact trimStart_cons_of_not_isBlank (isBlank_of_isNameChar hc)
  have hquoted : quoted? (c :: s ++ after ++ ['}'] ++ rest) = none := by
    simp [quoted?, hquote]
  have htext : braced before (c :: s) after ++ rest =
      '{' :: (before ++ (c :: s ++ after ++ ['}'] ++ rest)) := by
    simp [braced]
  rw [htext, literal?, braced?, hstart, hquoted]

end

/-- What a run of name characters stands for makes a token of it. -/
theorem isToken_name {before name after : List Char} (hbefore : ∀ c ∈ before, isBlank c = true)
    (hafter : ∀ c ∈ after, isBlank c = true) (hsome : name ≠ [])
    (hname : ∀ c ∈ name, isNameChar c = true) :
    IsToken (braced before name after) (.placeholder (keyOf name)) := by
  unfold keyOf
  split
  · rename_i hfits
    exact IsToken.index hbefore hafter hsome (fun c hc => List.all_eq_true.mp hfits.1 c hc)
      hfits.2
  · rename_i hother
    refine IsToken.named hbefore hafter hsome hname ?_
    rintro ⟨hdigits, hfits⟩
    exact hother ⟨List.all_eq_true.mpr hdigits, hfits⟩

/-- A name in braces is found as the token of what it stands for. -/
theorem token?_name {before name after : List Char} (hbefore : ∀ c ∈ before, isBlank c = true)
    (hafter : ∀ c ∈ after, isBlank c = true) (hsome : name ≠ [])
    (hname : ∀ c ∈ name, isNameChar c = true) (rest : List Char) :
    token? (braced before name after ++ rest) = some (.placeholder (keyOf name), rest) := by
  rw [token?, literal?_name hbefore hsome hname, braced?_name hbefore hafter hsome hname]
  rfl

/-- Digits are name characters. -/
theorem isNameChar_of_isDigit {c : Char} (hc : c.isDigit = true) : isNameChar c = true := by
  simp [isNameChar, Char.isAlphanum, hc]

/-- Whatever the grammar calls a token is found as what it stands for. -/
theorem token?_of_isToken {text : List Char} {item : Item} (htoken : IsToken text item)
    (rest : List Char) : token? (text ++ rest) = some (item, rest) := by
  cases htoken with
  | @literal before content after hbefore hafter hcontent =>
    rw [token?, literal?_eq_some_iff.mpr ⟨before, after, hbefore, hafter, hcontent, rfl⟩]
  | @index before digits after hbefore hafter hsome hdigits hfits =>
    have hname : ∀ c ∈ digits, isNameChar c = true :=
      fun c hc => isNameChar_of_isDigit (hdigits c hc)
    have hkey : keyOf digits = .index ⟨Nat.ofDigitChars 10 digits 0, hfits⟩ := by
      unfold keyOf
      rw [dif_pos ⟨List.all_eq_true.mpr hdigits, hfits⟩]
    rw [token?_name hbefore hafter hsome hname, hkey]
  | @named before name after hbefore hafter hsome hname hother =>
    have hkey : keyOf name = .named (String.ofList name) := by
      unfold keyOf
      rw [dif_neg]
      rintro ⟨hdigits, hfits⟩
      exact hother ⟨fun c hc => List.all_eq_true.mp hdigits c hc, hfits⟩
    rw [token?_name hbefore hafter hsome hname, hkey]

/-- Whatever is found as a token is one. -/
theorem exists_isToken_of_token? {s rest : List Char} {item : Item}
    (hread : token? s = some (item, rest)) : ∃ text, IsToken text item ∧ s = text ++ rest := by
  unfold token? at hread
  split at hread
  · rename_i content behind hliteral
    simp only [Option.some.injEq, Prod.mk.injEq] at hread
    obtain ⟨rfl, rfl⟩ := hread
    obtain ⟨before, after, hbefore, hafter, hcontent, rfl⟩ :=
      literal?_eq_some_iff.mp hliteral
    exact ⟨_, IsToken.literal hbefore hafter hcontent, rfl⟩
  · obtain ⟨⟨name, behind⟩, hbraced, heq⟩ := Option.map_eq_some_iff.mp hread
    simp only [Prod.mk.injEq] at heq
    obtain ⟨rfl, rfl⟩ := heq
    obtain ⟨before, t, after, hbefore, hafter, rfl, -, hinner⟩ :=
      braced?_eq_some_iff.mp hbraced
    obtain ⟨rfl, hsome, hname⟩ := of_name?_eq_some hinner
    exact ⟨_, isToken_name hbefore hafter hsome hname, by simp [braced]⟩

/-- A token is found exactly where the text starts with one. -/
theorem token?_eq_some_iff {s rest : List Char} {item : Item} :
    token? s = some (item, rest) ↔ ∃ text, IsToken text item ∧ s = text ++ rest := by
  constructor
  · exact exists_isToken_of_token?
  · rintro ⟨text, htoken, rfl⟩
    exact token?_of_isToken htoken rest

end Phrasebook.Template

import Mathlib.Data.List.DropRight
import Phrasebook.Proofs.Template.Decomposition
import Phrasebook.Template.Split
import Phrasebook.Text.Pieces

/-!
# Cutting decomposed texts

A template is cut into cases before anything is taken for a token in it.  This module
cuts the decomposition of the template instead, in which a token is one atom, and
proves that both give the same cases, also when white space is dropped at their ends.

Main results:

- Definition `cutAtoms`: cut at the bars in front of which no backslash stands.
- Theorem `intercalate_cutAtoms`: the cases and the bars between them are the whole
  decomposition.
- Theorem `cut_textOf`: cutting a text and cutting its decomposition give the same.
- Theorem `trim_textOf`: so does dropping white space at both ends.
-/

namespace Phrasebook.Template

open Text

/-! ## Cutting and trimming atoms -/

/-- Cut at the bars in front of which no backslash stands; `previous` is the atom in
front of these. -/
def cutAtoms (previous : Option Atom) : List Atom → List (List Atom)
  | [] => [[]]
  | atom :: atoms =>
      if atom = .char '|' ∧ previous ≠ some (.char '\\') then
        [] :: cutAtoms (some atom) atoms
      else (cutAtoms (some atom) atoms).modifyHead (atom :: ·)

/-- Whether an atom is white space; a token never is. -/
def Atom.isBlank : Atom → Bool
  | .char c => Text.isBlank c
  | .token _ => false

/-- Atoms without the white space at either end. -/
def trimAtoms (atoms : List Atom) : List Atom :=
  (atoms.dropWhile Atom.isBlank).rdropWhile Atom.isBlank

/-- There is always at least one case. -/
theorem cutAtoms_ne_nil (previous : Option Atom) (atoms : List Atom) :
    cutAtoms previous atoms ≠ [] := by
  induction atoms generalizing previous with
  | nil => simp [cutAtoms]
  | cons atom atoms ih =>
    rw [cutAtoms]
    split
    · simp
    · simp [ih]

/-- The cases and the bars between them are the whole decomposition. -/
theorem intercalate_cutAtoms (previous : Option Atom) (atoms : List Atom) :
    [Atom.char '|'].intercalate (cutAtoms previous atoms) = atoms := by
  induction atoms generalizing previous with
  | nil => rfl
  | cons atom atoms ih =>
    obtain ⟨first, others, hcut⟩ :=
      List.exists_cons_of_ne_nil (cutAtoms_ne_nil (some atom) atoms)
    have hjoined := ih (some atom)
    rw [cutAtoms]
    rw [hcut] at hjoined ⊢
    split
    · rename_i hbar
      rw [List.intercalate_cons_cons, hjoined, hbar.1]
      rfl
    · rw [List.modifyHead_cons]
      cases others with
      | nil => simpa using hjoined
      | cons second others =>
        rw [List.intercalate_cons_cons] at hjoined ⊢
        rw [← hjoined]
        rfl

/-- A case is a stretch of the decomposition. -/
theorem isInfix_of_mem_cutAtoms {previous : Option Atom} {atoms segment : List Atom}
    (hsegment : segment ∈ cutAtoms previous atoms) : segment <:+: atoms := by
  have hstretch := isInfix_intercalate [Atom.char '|'] hsegment
  rwa [intercalate_cutAtoms] at hstretch

/-- Dropping white space at the ends leaves a stretch. -/
theorem trimAtoms_isInfix (atoms : List Atom) : trimAtoms atoms <:+: atoms :=
  (List.rdropWhile_prefix _ _).isInfix.trans (List.dropWhile_suffix _).isInfix

/-! ## Cutting text -/

private theorem attach_attach (front back : List Char) (texts : List (List Char)) :
    attach front (attach back texts) = attach (front ++ back) texts := by
  cases texts <;> simp [attach]

/-- A literal token is a token. -/
private theorem literal?_of_not_startsToken {s : List Char} (hstart : ¬StartsToken s) :
    literal? s = none := by
  have hnone := token?_eq_none_iff.mpr hstart
  unfold token? at hnone
  split at hnone
  · simp at hnone
  · assumption

/-- A literal token stays in one piece. -/
private theorem cut_of_literal?_eq_some {s content rest : List Char}
    (hliteral : literal? s = some (content, rest)) (escaped : Bool) :
    cut escaped s = attach (s.take (s.length - rest.length)) (cut false rest) := by
  cases s with
  | nil => simp [literal?, braced?] at hliteral
  | cons c s =>
    rw [cut]
    split
    · rename_i found behind hfound
      rw [hliteral] at hfound
      simp only [Option.some.injEq, Prod.mk.injEq] at hfound
      rw [hfound.2]
    · rename_i hnone
      rw [hliteral] at hnone
      exact absurd hnone (Option.some_ne_none _)

/-- Anything else is looked at one character at a time. -/
private theorem cut_of_literal?_eq_none {c : Char} {s : List Char}
    (hliteral : literal? (c :: s) = none) (escaped : Bool) :
    cut escaped (c :: s) =
      if c = '|' ∧ escaped = false then [] :: cut false s
      else attach [c] (cut (c = '\\') s) := by
  rw [cut]
  split
  · rename_i hsome
    rw [hliteral] at hsome
    exact absurd hsome.symm (Option.some_ne_none _)
  · rfl

/-- Up to a closing brace nothing is cut where no bar and no brace opens. -/
private theorem cut_inside_append {inside : List Char}
    (hinside : ∀ c ∈ inside, c ≠ '{' ∧ c ≠ '|') (escaped : Bool) (rest : List Char) :
    cut escaped (inside ++ '}' :: rest) = attach (inside ++ ['}']) (cut false rest) := by
  induction inside generalizing escaped with
  | nil =>
    have hliteral : literal? ('}' :: rest) = none := by simp [literal?, braced?]
    rw [List.nil_append, cut_of_literal?_eq_none hliteral]
    simp
  | cons c inside ih =>
    obtain ⟨hbrace, hbar⟩ := hinside c (List.mem_cons_self ..)
    have hliteral : literal? (c :: (inside ++ '}' :: rest)) = none := by
      simp [literal?, braced?, hbrace]
    have hrest := ih (fun d hd => hinside d (List.mem_cons_of_mem c hd)) (c = '\\')
    rw [List.cons_append, cut_of_literal?_eq_none hliteral, if_neg (fun h => hbar h.1), hrest,
      attach_attach]
    rfl

/-- What stands in the braces of a name is neither a brace nor a bar. -/
private theorem ne_of_mem_name {before name after : List Char}
    (hbefore : ∀ c ∈ before, isBlank c = true) (hafter : ∀ c ∈ after, isBlank c = true)
    (hname : ∀ c ∈ name, isNameChar c = true) :
    ∀ c ∈ before ++ name ++ after, c ≠ '{' ∧ c ≠ '|' := by
  have hblank : ∀ c, isBlank c = true → c ≠ '{' ∧ c ≠ '|' := by
    intro c hc
    constructor <;> rintro rfl <;> exact absurd hc (by decide)
  have hnamed : ∀ c, isNameChar c = true → c ≠ '{' ∧ c ≠ '|' := by
    intro c hc
    constructor <;> rintro rfl <;> exact absurd hc (by decide)
  intro c hc
  rw [List.mem_append, List.mem_append] at hc
  rcases hc with (hc | hc) | hc
  · exact hblank c (hbefore c hc)
  · exact hnamed c (hname c hc)
  · exact hblank c (hafter c hc)

private theorem cut_name_append {before name after : List Char}
    (hbefore : ∀ c ∈ before, isBlank c = true) (hafter : ∀ c ∈ after, isBlank c = true)
    (hsome : name ≠ []) (hname : ∀ c ∈ name, isNameChar c = true) (escaped : Bool)
    (rest : List Char) :
    cut escaped (braced before name after ++ rest) =
      attach (braced before name after) (cut false rest) := by
  have htext : braced before name after ++ rest =
      '{' :: (before ++ name ++ after ++ '}' :: rest) := by
    simp [braced]
  have hliteral := @literal?_name before name after rest hbefore hsome hname
  rw [htext] at hliteral ⊢
  rw [cut_of_literal?_eq_none hliteral, if_neg (by simp),
    cut_inside_append (ne_of_mem_name hbefore hafter hname), attach_attach]
  simp [braced]

/-- A token is never cut, and it ends what a backslash in front of it would escape. -/
theorem cut_token_append (token : Token) (escaped : Bool) (rest : List Char) :
    cut escaped (token.text ++ rest) = attach token.text (cut false rest) := by
  rcases token with ⟨text, item, htoken⟩
  cases htoken with
  | @literal before content after hbefore hafter hcontent =>
    have hliteral := literal?_eq_some_iff.mpr
      ⟨before, after, hbefore, hafter, hcontent, @rfl _ (_ ++ rest)⟩
    rw [cut_of_literal?_eq_some hliteral, List.length_append, Nat.add_sub_cancel_right,
      List.take_left]
  | index hbefore hafter hsome hdigits _ =>
    exact cut_name_append hbefore hafter hsome
      (fun c hc => isNameChar_of_isDigit (hdigits c hc)) escaped rest
  | named hbefore hafter hsome hname _ =>
    exact cut_name_append hbefore hafter hsome hname escaped rest

/-! ## Both ways agree -/

private theorem attach_map_textOf {atom : Atom} {segments : List (List Atom)}
    (hsegments : segments ≠ []) :
    attach atom.text (segments.map textOf) = (segments.modifyHead (atom :: ·)).map textOf := by
  obtain ⟨first, others, rfl⟩ := List.exists_cons_of_ne_nil hsegments
  rfl

/-- Cutting a text and cutting its decomposition give the same. -/
theorem cut_textOf {atoms : List Atom} (hatoms : Marked atoms) (previous : Option Atom) :
    cut (previous = some (.char '\\')) (textOf atoms) =
      (cutAtoms previous atoms).map textOf := by
  induction atoms generalizing previous with
  | nil =>
    rw [textOf_nil, cut]
    rfl
  | cons atom atoms ih =>
    have hne := cutAtoms_ne_nil (some atom) atoms
    cases atom with
    | char c =>
      have hliteral := literal?_of_not_startsToken hatoms.1
      have hbackslash : decide (some (Atom.char c) = some (.char '\\')) = decide (c = '\\') := by
        simp
      have hrest := ih hatoms.2 (some (.char c))
      rw [hbackslash] at hrest
      rw [textOf_char, cut_of_literal?_eq_none hliteral, cutAtoms]
      by_cases hbar : c = '|' ∧ previous ≠ some (.char '\\')
      · obtain ⟨rfl, hprevious⟩ := hbar
        rw [if_pos (by simpa using hprevious), if_pos ⟨rfl, hprevious⟩, List.map_cons, ← hrest]
        rfl
      · rw [if_neg (by simpa using hbar), if_neg (by simpa using hbar), hrest,
          ← attach_map_textOf hne]
        rfl
    | token token =>
      have hrest := ih hatoms (some (.token token))
      rw [textOf_token, cut_token_append, cutAtoms, if_neg (by simp), ← attach_map_textOf hne,
        ← hrest]
      simp [Atom.text]

private theorem trimStart_textOf (atoms : List Atom) :
    trimStart (textOf atoms) = textOf (atoms.dropWhile Atom.isBlank) := by
  induction atoms with
  | nil => rfl
  | cons atom atoms ih =>
    cases atom with
    | char c =>
      rw [List.dropWhile_cons, Atom.isBlank, textOf_char]
      split
      · rename_i hc
        rw [trimStart_cons_of_isBlank hc, ih]
      · rename_i hc
        have hvisible : isBlank c = false := by simpa using hc
        rw [trimStart_cons_of_not_isBlank hvisible, textOf_char]
    | token token =>
      obtain ⟨inside, htext⟩ := token.exists_braces
      rw [List.dropWhile_cons_of_neg (by simp [Atom.isBlank]), textOf_token, htext]
      exact trimStart_cons_of_not_isBlank (by simp)

/-- White space at the end is dropped one character at a time. -/
private theorem trimEnd_concat (s : List Char) (c : Char) :
    trimEnd (s ++ [c]) = if isBlank c = true then trimEnd s else s ++ [c] := by
  by_cases hc : isBlank c = true <;> simp [trimEnd, hc]

private theorem trimEnd_textOf (atoms : List Atom) :
    trimEnd (textOf atoms) = textOf (atoms.rdropWhile Atom.isBlank) := by
  induction atoms using List.reverseRecOn with
  | nil => rfl
  | append_singleton atoms atom ih =>
    rw [List.rdropWhile_concat, textOf_append]
    cases atom with
    | char c =>
      rw [textOf_char, textOf_nil, trimEnd_concat, Atom.isBlank]
      split
      · exact ih
      · simp
    | token token =>
      obtain ⟨inside, htext⟩ := token.exists_braces
      rw [textOf_token, textOf_nil, List.append_nil, htext, ← List.append_assoc, trimEnd_concat,
        if_neg (by simp), if_neg (by simp [Atom.isBlank]), textOf_append, textOf_token, htext]
      simp

/-- Dropping white space at the ends of a text never reaches into a token. -/
theorem trim_textOf (atoms : List Atom) : trim (textOf atoms) = textOf (trimAtoms atoms) := by
  rw [trim, trimStart_textOf, trimEnd_textOf, trimAtoms]

end Phrasebook.Template

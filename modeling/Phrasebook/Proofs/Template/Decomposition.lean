import Phrasebook.Proofs.Template.Tokens

/-!
# Decomposed texts

A text decomposes into its tokens and the characters that belong to none, when the
leftmost token is taken again and again.  This module defines the decomposition
without reading anything, proves that every text has exactly one, and replaces its
leftmost searches by a condition on each of its characters.

Main results:

- Definition `Decomposed`: the decomposition of a text by its leftmost tokens.
- Theorem `decomposed_iff_marked`: the atoms decompose a text exactly when they spell
  it and no token starts at a character of theirs.
- Theorem `exists_decomposed_iff_eq`: every text has exactly one decomposition.
- Theorem `Marked.of_isInfix`: a stretch of a decomposition decomposes its own text.
-/

namespace Phrasebook.Template

/-! ## Atoms -/

/-- A text that is a token, with what it stands for. -/
@[ext]
structure Token where
  text : List Char
  item : Item
  isToken : IsToken text item
  deriving DecidableEq

/-- A part of a decomposed text: a character that belongs to no token, or a token. -/
inductive Atom where
  | char (c : Char)
  | token (token : Token)
  deriving DecidableEq

/-- The text of an atom. -/
def Atom.text : Atom → List Char
  | .char c => [c]
  | .token t => t.text

/-- The text that atoms spell. -/
def textOf (atoms : List Atom) : List Char :=
  atoms.flatMap Atom.text

@[simp] theorem textOf_nil : textOf [] = [] := rfl

@[simp] theorem textOf_char (c : Char) (atoms : List Atom) :
    textOf (.char c :: atoms) = c :: textOf atoms := rfl

@[simp] theorem textOf_token (token : Token) (atoms : List Atom) :
    textOf (.token token :: atoms) = token.text ++ textOf atoms := rfl

@[simp] theorem textOf_append (front back : List Atom) :
    textOf (front ++ back) = textOf front ++ textOf back :=
  List.flatMap_append

@[simp] theorem textOf_map_char (s : List Char) : textOf (s.map Atom.char) = s := by
  induction s with
  | nil => rfl
  | cons c s ih => simp [ih]

/-- A token stands in braces. -/
theorem Token.exists_braces (token : Token) :
    ∃ inside, token.text = '{' :: inside ++ ['}'] := by
  rcases token with ⟨text, item, htoken⟩
  cases htoken <;> exact ⟨_, rfl⟩

/-- At most one token stands at the front of a text. -/
theorem Token.eq_of_append_eq {token other : Token} {rest behind : List Char}
    (h : token.text ++ rest = other.text ++ behind) : token = other ∧ rest = behind := by
  have hread := token?_of_isToken token.isToken rest
  rw [h, token?_of_isToken other.isToken behind] at hread
  simp only [Option.some.injEq, Prod.mk.injEq] at hread
  obtain ⟨hitem, rfl⟩ := hread
  exact ⟨Token.ext (List.append_cancel_right h) hitem.symm, rfl⟩

/-! ## The decomposition -/

/-- A token stands at the front of the text. -/
def StartsToken (s : List Char) : Prop :=
  ∃ (token : Token) (rest : List Char), s = token.text ++ rest

/-- The decomposition of a text by its leftmost tokens. -/
inductive Decomposed : List Char → List Atom → Prop where
  /-- A text without tokens is left as it is. -/
  | chars {s : List Char} (hnone : ∀ t, t <:+ s → ¬StartsToken t) :
      Decomposed s (s.map .char)
  /-- No token starts in front of the leftmost one; what is behind it is decomposed
  likewise. -/
  | token {front rest : List Char} {token : Token} {atoms : List Atom}
      (hleftmost : ∀ t, t <:+ front → t ≠ [] → ¬StartsToken (t ++ (token.text ++ rest)))
      (hrest : Decomposed rest atoms) :
      Decomposed (front ++ (token.text ++ rest)) (front.map .char ++ .token token :: atoms)

/-- A token is found at the front of a text exactly where one stands. -/
theorem token?_eq_none_iff {s : List Char} : token? s = none ↔ ¬StartsToken s := by
  constructor
  · rintro hnone ⟨token, rest, rfl⟩
    rw [token?_of_isToken token.isToken] at hnone
    exact Option.some_ne_none _ hnone
  · intro hstart
    rw [Option.eq_none_iff_forall_ne_some]
    rintro ⟨item, rest⟩ hread
    obtain ⟨text, htoken, hs⟩ := token?_eq_some_iff.mp hread
    exact hstart ⟨⟨text, item, htoken⟩, rest, hs⟩

/-- A token at the front of a text is there in a longer text. -/
theorem StartsToken.append {s : List Char} (hstart : StartsToken s) (more : List Char) :
    StartsToken (s ++ more) := by
  obtain ⟨token, rest, rfl⟩ := hstart
  exact ⟨token, rest ++ more, List.append_assoc ..⟩

theorem not_startsToken_nil : ¬StartsToken [] := by
  rintro ⟨token, rest, h⟩
  obtain ⟨inside, htext⟩ := token.exists_braces
  simp [htext] at h

/-- A character at which no token starts goes in front of a decomposition. -/
theorem Decomposed.cons_char {c : Char} {s : List Char} {atoms : List Atom}
    (hs : Decomposed s atoms) (hc : ¬StartsToken (c :: s)) :
    Decomposed (c :: s) (.char c :: atoms) := by
  cases hs with
  | chars hnone =>
    refine Decomposed.chars (s := c :: s) ?_
    intro t ht
    rcases List.suffix_cons_iff.mp ht with rfl | ht
    · exact hc
    · exact hnone t ht
  | @token front rest token atoms hleftmost hrest =>
    refine @Decomposed.token (c :: front) rest token atoms ?_ hrest
    intro t ht hsome
    rcases List.suffix_cons_iff.mp ht with rfl | ht
    · exact hc
    · exact hleftmost t ht hsome

/-! ## The condition on each character -/

/-- No token starts at a character of the atoms, with the text behind it. -/
def Marked : List Atom → Prop
  | [] => True
  | .char c :: atoms => ¬StartsToken (c :: textOf atoms) ∧ Marked atoms
  | .token _ :: atoms => Marked atoms

/-- Characters are marked when no token starts at any of them. -/
theorem marked_map_char_append {front : List Char} {atoms : List Atom} :
    Marked (front.map .char ++ atoms) ↔
      (∀ t, t <:+ front → t ≠ [] → ¬StartsToken (t ++ textOf atoms)) ∧ Marked atoms := by
  induction front with
  | nil =>
    simp only [List.map_nil, List.nil_append, List.suffix_nil]
    exact ⟨fun hatoms => ⟨fun t ht hsome => absurd ht hsome, hatoms⟩, fun h => h.2⟩
  | cons c front ih =>
    simp only [List.map_cons, List.cons_append, Marked, ih, textOf_append, textOf_map_char]
    constructor
    · rintro ⟨hc, hfront, hatoms⟩
      refine ⟨?_, hatoms⟩
      intro t ht hsome
      rcases List.suffix_cons_iff.mp ht with rfl | ht
      · exact hc
      · exact hfront t ht hsome
    · rintro ⟨hfront, hatoms⟩
      refine ⟨hfront (c :: front) (List.suffix_refl _) (by simp), ?_, hatoms⟩
      intro t ht hsome
      exact hfront t (ht.trans (List.suffix_cons c front)) hsome

/-- The atoms decompose a text exactly when they spell it and no token starts at a
character of theirs. -/
theorem decomposed_iff_marked {s : List Char} {atoms : List Atom} :
    Decomposed s atoms ↔ textOf atoms = s ∧ Marked atoms := by
  constructor
  · intro hs
    induction hs with
    | @chars s hnone =>
      refine ⟨textOf_map_char s, ?_⟩
      rw [← List.append_nil (s.map Atom.char), marked_map_char_append]
      refine ⟨?_, trivial⟩
      intro t ht _
      rw [textOf_nil, List.append_nil]
      exact hnone t ht
    | token hleftmost _ ih =>
      obtain ⟨rfl, hatoms⟩ := ih
      refine ⟨by simp, ?_⟩
      rw [marked_map_char_append]
      exact ⟨hleftmost, hatoms⟩
  · rintro ⟨rfl, hmarked⟩
    induction atoms with
    | nil =>
      refine Decomposed.chars ?_
      intro t ht
      rw [textOf_nil, List.suffix_nil] at ht
      rw [ht]
      exact not_startsToken_nil
    | cons atom atoms ih =>
      cases atom with
      | char c => exact (ih hmarked.2).cons_char hmarked.1
      | token token =>
        refine @Decomposed.token [] (textOf atoms) token atoms ?_ (ih hmarked)
        intro t ht hsome
        exact absurd (List.suffix_nil.mp ht) hsome

/-! ## Every text has one decomposition -/

/-- Marked atoms are determined by their text. -/
theorem Marked.eq_of_textOf_eq {atoms others : List Atom} (hatoms : Marked atoms)
    (hothers : Marked others) (h : textOf atoms = textOf others) : atoms = others := by
  induction atoms generalizing others with
  | nil =>
    cases others with
    | nil => rfl
    | cons other others =>
      cases other with
      | char c => simp at h
      | token token =>
        obtain ⟨inside, htext⟩ := token.exists_braces
        simp [htext] at h
  | cons atom atoms ih =>
    cases others with
    | nil =>
      cases atom with
      | char c => simp at h
      | token token =>
        obtain ⟨inside, htext⟩ := token.exists_braces
        simp [htext] at h
    | cons other others =>
      cases atom with
      | char c =>
        cases other with
        | char d =>
          simp only [textOf_char, List.cons.injEq] at h
          rw [h.1, ih hatoms.2 hothers.2 h.2]
        | token token => exact absurd ⟨token, textOf others, h⟩ hatoms.1
      | token token =>
        cases other with
        | char d => exact absurd ⟨token, textOf atoms, h.symm⟩ hothers.1
        | token other =>
          rw [textOf_token, textOf_token] at h
          obtain ⟨rfl, hrest⟩ := Token.eq_of_append_eq h
          have hsame : atoms = others := ih hatoms hothers hrest
          rw [hsame]

/-- Every text is spelled by marked atoms. -/
theorem exists_marked (s : List Char) : ∃ atoms, textOf atoms = s ∧ Marked atoms := by
  by_cases hstart : StartsToken s
  · obtain ⟨token, rest, hs⟩ := hstart
    have hshorter : rest.length < s.length := by
      obtain ⟨inside, htext⟩ := token.exists_braces
      rw [hs, htext]
      simp
      omega
    obtain ⟨atoms, hrest, hatoms⟩ := exists_marked rest
    exact ⟨.token token :: atoms, by rw [textOf_token, hrest, hs], hatoms⟩
  · cases s with
    | nil => exact ⟨[], rfl, trivial⟩
    | cons c s =>
      obtain ⟨atoms, rfl, hatoms⟩ := exists_marked s
      exact ⟨.char c :: atoms, rfl, hstart, hatoms⟩
termination_by s.length

/-- Every text has exactly one decomposition. -/
theorem exists_decomposed_iff_eq (s : List Char) :
    ∃ atoms, ∀ others, Decomposed s others ↔ others = atoms := by
  obtain ⟨atoms, hs, hatoms⟩ := exists_marked s
  refine ⟨atoms, ?_⟩
  intro others
  rw [decomposed_iff_marked]
  constructor
  · rintro ⟨hothers, hmarked⟩
    exact hmarked.eq_of_textOf_eq hatoms (hothers.trans hs.symm)
  · rintro rfl
    exact ⟨hs, hatoms⟩

/-! ## Stretches of a decomposition -/

/-- The front of marked atoms is marked: a token at its front would be there in the
longer text as well. -/
theorem Marked.of_append_left {front back : List Atom} (h : Marked (front ++ back)) :
    Marked front := by
  induction front with
  | nil => trivial
  | cons atom front ih =>
    cases atom with
    | char c =>
      rw [List.cons_append, Marked, textOf_append] at h
      refine ⟨?_, ih h.2⟩
      intro hstart
      exact h.1 (hstart.append (textOf back))
    | token token => exact ih h

theorem Marked.of_append_right {front back : List Atom} (h : Marked (front ++ back)) :
    Marked back := by
  induction front with
  | nil => exact h
  | cons atom front ih =>
    cases atom with
    | char c => exact ih h.2
    | token token => exact ih h

/-- A stretch of marked atoms is marked. -/
theorem Marked.of_isInfix {atoms stretch : List Atom} (hatoms : Marked atoms)
    (hstretch : stretch <:+: atoms) : Marked stretch := by
  obtain ⟨front, back, rfl⟩ := hstretch
  exact hatoms.of_append_left.of_append_right

end Phrasebook.Template

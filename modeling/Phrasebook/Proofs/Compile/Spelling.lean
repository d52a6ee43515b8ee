import Phrasebook.Proofs.Compile.FixedPhrases

/-!
# Texts written as templates

Every text can be said by a template, whatever stands in it: each character is written as
a literal token of its own.  A single quote cannot stand in such a token and is written as
it is, for outside of tokens a quote is text.  The tokens that were written are the tokens
that are found, since no token starts at a quote.  No bar is left to cut at, and there is
no white space to be dropped, because it all stands in tokens.

Main results:

- Definition `spell`: the template that says a text.
- Theorem `decomposed_spell`: the tokens found in it are those that were written.
- Theorem `spell_says`: it has one case and becomes that text, fixed, with both backends.
-/

namespace Phrasebook

open Script

namespace Template

open Text

/-! ## Writing texts -/

/-- A character as it is written in a template: a single quote as it is, and any other
character as a literal token. -/
def spellChar (c : Char) : List Char :=
  if c = '\'' then ['\''] else ['{', '\'', c, '\'', '}']

/-- The template that says a text. -/
def spell (text : String) : String :=
  String.ofList (text.toList.flatMap spellChar)

/-- The literal token of a character that is no single quote. -/
def charToken (c : Char) (hc : c ≠ '\'') : Token where
  text := braced [] ('\'' :: [c] ++ ['\'']) []
  item := .literal (String.ofList [c])
  isToken := .literal (List.forall_mem_nil _) (List.forall_mem_nil _)
    (by simpa using Ne.symm hc)

@[simp] theorem content_charToken (c : Char) (hc : c ≠ '\'') :
    (charToken c hc).content = [c] :=
  String.toList_ofList

/-- What a written character is in the decomposition of the template. -/
def spelledAtom (c : Char) : Atom :=
  if hc : c = '\'' then .char c else .token (charToken c hc)

/-- The written character is spelled by its atom. -/
theorem text_spelledAtom (c : Char) : (spelledAtom c).text = spellChar c := by
  unfold spelledAtom spellChar
  by_cases hc : c = '\''
  · rw [dif_pos hc, if_pos hc, hc]
    rfl
  · rw [dif_neg hc, if_neg hc]
    rfl

/-- A written character is visible, no bar, and no placeholder. -/
theorem spelledAtom_plain (c : Char) :
    (spelledAtom c).isBlank = false ∧ spelledAtom c ≠ .char '|' ∧
      (spelledAtom c).key? = none := by
  unfold spelledAtom
  by_cases hc : c = '\''
  · rw [dif_pos hc, hc]
    decide
  · rw [dif_neg hc]
    exact ⟨rfl, by simp, rfl⟩

/-! ## Finding what was written -/

/-- The atoms of a text spell the template that says it. -/
theorem textOf_spelled (s : List Char) : textOf (s.map spelledAtom) = s.flatMap spellChar := by
  rw [textOf, List.flatMap_map]
  exact List.flatMap_congr fun c _ => text_spelledAtom c

/-- No token starts at a quote outside of tokens. -/
theorem marked_spelled (s : List Char) : Marked (s.map spelledAtom) := by
  induction s with
  | nil => trivial
  | cons c s ih =>
    rw [List.map_cons, spelledAtom]
    by_cases hc : c = '\''
    · rw [dif_pos hc]
      refine ⟨?_, ih⟩
      rintro ⟨token, rest, hstart⟩
      obtain ⟨inside, htext⟩ := token.exists_braces
      simp [htext, hc] at hstart
    · rw [dif_neg hc]
      exact ih

/-- The tokens found in the template are those that were written. -/
theorem decomposed_spell (text : String) :
    Decomposed (spell text).toList (text.toList.map spelledAtom) := by
  rw [decomposed_iff_marked, spell, String.toList_ofList]
  exact ⟨textOf_spelled text.toList, marked_spelled text.toList⟩

/-- No bar is left to cut at. -/
theorem uncut_spelled (previous : Option Atom) (s : List Char) :
    Uncut previous (s.map spelledAtom) := by
  induction s generalizing previous with
  | nil => trivial
  | cons c s ih => exact ⟨fun hbar => absurd hbar (spelledAtom_plain c).2.1, ih _⟩

/-- Atoms that are all visible are not trimmed. -/
theorem trimAtoms_of_visible {atoms : List Atom}
    (hatoms : ∀ atom ∈ atoms, atom.isBlank = false) : trimAtoms atoms = atoms := by
  have hfront : atoms.dropWhile Atom.isBlank = atoms := by
    cases atoms with
    | nil => rfl
    | cons atom atoms => exact List.dropWhile_cons_of_neg (by simp [hatoms])
  rw [trimAtoms, hfront, List.rdropWhile_eq_self_iff]
  intro hsome
  rw [hatoms _ (List.getLast_mem hsome)]
  exact Bool.false_ne_true

/-- There is no white space to be dropped. -/
theorem trimAtoms_spelled (s : List Char) :
    trimAtoms (s.map spelledAtom) = s.map spelledAtom := by
  apply trimAtoms_of_visible
  intro atom hatom
  obtain ⟨c, -, rfl⟩ := List.mem_map.mp hatom
  exact (spelledAtom_plain c).1

/-- The atoms of a text say the text. -/
theorem plainText_spelled (s : List Char) : plainText (s.map spelledAtom) = s := by
  induction s with
  | nil => rfl
  | cons c s ih =>
    rw [List.map_cons, spelledAtom]
    by_cases hc : c = '\''
    · rw [dif_pos hc, hc, plainText.eq_2 _ _ (by simp), ih]
    · rw [dif_neg hc, plainText, ih, content_charToken, List.singleton_append]

/-- The case of the template says the text. -/
theorem says_spelled (text : String) : Says (text.toList.map spelledAtom) text := by
  refine ⟨?_, ?_⟩
  · intro atom hatom
    obtain ⟨c, -, rfl⟩ := List.mem_map.mp hatom
    exact (spelledAtom_plain c).2.2
  · rw [trimAtoms_spelled, plainText_spelled]

end Template

open Template

/-! ## What the template becomes -/

/-- Every text is said by a template, in which each character but the single quote is
written as a literal token.  The template has one case, and nothing is dropped at its ends.
Both backends make the text itself of it, fixed, and so it is evaluated to this text in
every context. -/
theorem spell_says (text : String) :
    split (spell text) = [spell text] ∧
    (∃ message, parse (spell text) = .single message) ∧
    Template.plan (spell text) = ⟨.single (.fixed text), []⟩ ∧
    Template.compile (spell text) = ⟨Json.quote text, []⟩ ∧
    Tree.ofSource (Json.quote text) = .ok (.cases (.single (.fixed text))) ∧
    ∀ context, (Template.plan (spell text)).result.map (fun phrase => phrase.evaluate context) =
      .single text := by
  let atoms := text.toList.map spelledAtom
  have hatoms : Decomposed (spell text).toList atoms := decomposed_spell text
  have hcut : cutAtoms none atoms = [atoms] := (uncut_spelled none text.toList).cutAtoms_eq
  have hsplit : split (spell text) = [spell text] := by
    rw [spell, ← textOf_spelled, split_eq_map_cutAtoms (marked_spelled _), hcut,
      List.map_singleton, trimAtoms_spelled]
  have hparse : parse (spell text) = .single (messageOf atoms) := by
    rw [parse_of_decomposed hatoms, messagesOf, hcut]
    rfl
  have hfixed : (messageOf atoms).plan.result = .fixed text :=
    plan_messageOf_eq_fixed_iff.mpr (says_spelled text)
  have hplan : Template.plan (spell text) = ⟨.single (.fixed text), []⟩ := by
    rw [plan_of_parse_single hparse, hfixed]
  have hcompile : Template.compile (spell text) = ⟨Json.quote text, []⟩ := by
    rw [compile_of_parse_single hparse, compile_eq_quote_iff.mpr hfixed]
  have hread := ofSource_text (Denotes.fixed text)
  rw [text_literal_string] at hread
  refine ⟨hsplit, ⟨_, hparse⟩, hplan, hcompile, hread, fun context => ?_⟩
  rw [hplan]
  rfl

/-- A quote between two braces, and white space with a bar. -/
example : spell "\x7b'\x7d |" = "\x7b'\x7b'\x7d'\x7b'\x7d'\x7d\x7b' '\x7d\x7b'|'\x7d" := by
  decide +kernel

end Phrasebook

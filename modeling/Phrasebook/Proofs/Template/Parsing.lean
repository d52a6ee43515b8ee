import Mathlib.Data.List.Infix
import Phrasebook.Proofs.Template.Segments
import Phrasebook.Template.Parse

/-!
# Parsing decomposed templates

A template is parsed case by case, with tokens looked for in each case on its own.
This module says what a template means in terms of its decomposition as a whole, and
proves that parsing finds exactly that: cutting first neither splits a token nor makes
or loses one.

Main results:

- Definition `messagesOf`: the messages of a decomposed template.
- Theorem `unescapeBars_eq_runText`: escaped bars are replaced by dropping the backslash
  in front of each.
- Theorem `map_toItem_pieces_textOf`: the items of one case.
- Theorem `parse_eq_messagesOf`: every template has exactly one decomposition, parsing
  gives the messages of it, and their tokens are its tokens.
-/

namespace Phrasebook

/-- Whether an item is text that stands outside of tokens. -/
def Item.isRun : Item → Bool
  | .text _ => true
  | _ => false

/-- The items of a message that stand for tokens. -/
def Message.tokens (message : Message) : List Item :=
  message.items.filter fun item => !item.isRun

namespace Template

open Text

/-! ## The meaning of a decomposition -/

/-- The text that a run of characters stands for: all of them but the backslashes that
have a bar right behind them. -/
def runText (run : List Char) : List Char :=
  run.tails.filterMap fun
    | '\\' :: '|' :: _ => none
    | rest => rest.head?

/-- The items of a run of characters: the text it stands for, unless it is empty. -/
def runItems (run : List Char) : List Item :=
  if run = [] then [] else [.text (String.ofList (runText run))]

/-- The items of atoms: their runs of characters and their tokens.  The run that is
being read is `run`. -/
def itemsOf (run : List Char) : List Atom → List Item
  | [] => runItems run
  | .char c :: atoms => itemsOf (run ++ [c]) atoms
  | .token token :: atoms => runItems run ++ token.item :: itemsOf [] atoms

/-- The message of a case; a case with nothing left is one empty text. -/
def messageOf (segment : List Atom) : Message :=
  match itemsOf [] (trimAtoms segment) with
  | [] => ⟨[.text ""]⟩
  | items => ⟨items⟩

/-- One message alone, or a plural group. -/
def casesOf : List Message → Cases Message
  | [message] => .single message
  | messages => .plural messages

/-- The messages of a decomposed template. -/
def messagesOf (atoms : List Atom) : Cases Message :=
  casesOf ((cutAtoms none atoms).map messageOf)

/-- What an atom stands for, when it is a token. -/
def Atom.item? : Atom → Option Item
  | .char _ => none
  | .token t => some t.item

/-! ## Runs -/

/-- Escaped bars are found one after the other; what is left is every character that is
no backslash in front of a bar. -/
theorem unescapeBars_eq_runText (run : List Char) : unescapeBars run = runText run := by
  unfold runText
  induction run using unescapeBars.induct with
  | case1 run ih => simp [unescapeBars, ih]
  | case2 c run hescape ih =>
    have hkept : ∀ rest, c :: run ≠ '\\' :: '|' :: rest := by
      intro rest hrun
      exact hescape rest (List.cons.inj hrun).1 (List.cons.inj hrun).2
    rw [unescapeBars.eq_2 c run hescape, ih, List.tails_cons, List.filterMap_cons]
    split
    · rename_i hnone
      split at hnone
      · rename_i rest hrun
        exact absurd hrun (hkept rest)
      · simp at hnone
    · rename_i hsome
      split at hsome
      · simp at hsome
      · simpa using hsome
  | case3 => rfl

/-- Characters pushed in front of pieces that start with a token make one run. -/
private theorem map_toItem_foldr_push {pieces : List Piece}
    (hpieces : ∀ text rest, pieces ≠ .run text :: rest) (run : List Char) :
    (run.foldr Piece.push pieces).map Piece.toItem =
      runItems run ++ pieces.map Piece.toItem := by
  have hfold : run.foldr Piece.push pieces =
      if run = [] then pieces else .run run :: pieces := by
    induction run with
    | nil => rfl
    | cons c run ih =>
      rw [List.foldr_cons, ih]
      by_cases hrun : run = []
      · rw [if_pos hrun, hrun]
        cases pieces with
        | nil => rfl
        | cons piece pieces =>
          cases piece with
          | run text => exact absurd rfl (hpieces text pieces)
          | token item => rfl
      · rw [if_neg hrun]
        rfl
  rw [hfold, runItems]
  split
  · rfl
  · rw [List.map_cons, Piece.toItem, unescapeBars_eq_runText]
    rfl

/-! ## One case -/

/-- Where no token starts, a character joins the run behind it. -/
theorem pieces_of_not_startsToken {c : Char} {s : List Char} (hstart : ¬StartsToken (c :: s)) :
    pieces (c :: s) = Piece.push c (pieces s) := by
  have hnone := token?_eq_none_iff.mpr hstart
  rw [pieces]
  split
  · rename_i hsome
    rw [hnone] at hsome
    exact absurd hsome.symm (Option.some_ne_none _)
  · rfl

/-- A token is found where it stands. -/
theorem pieces_token_append (token : Token) (rest : List Char) :
    pieces (token.text ++ rest) = .token token.item :: pieces rest := by
  obtain ⟨inside, htext⟩ := token.exists_braces
  have hsome := token?_of_isToken token.isToken rest
  rw [htext, List.cons_append, List.cons_append] at hsome ⊢
  rw [pieces]
  split
  · rename_i item behind hfound
    rw [hsome] at hfound
    simp only [Option.some.injEq, Prod.mk.injEq] at hfound
    obtain ⟨rfl, rfl⟩ := hfound
    rfl
  · rename_i hnone
    rw [hsome] at hnone
    exact absurd hnone (Option.some_ne_none _)

/-- Pieces are found in a text as they stand in its decomposition; what is read as a
run so far goes in front of them. -/
private theorem map_toItem_foldr_pieces {atoms : List Atom} (hatoms : Marked atoms)
    (run : List Char) :
    (run.foldr Piece.push (pieces (textOf atoms))).map Piece.toItem = itemsOf run atoms := by
  induction atoms generalizing run with
  | nil =>
    rw [textOf_nil, pieces, map_toItem_foldr_push (by simp), itemsOf]
    simp
  | cons atom atoms ih =>
    cases atom with
    | char c =>
      have hrun : (run ++ [c]).foldr Piece.push (pieces (textOf atoms)) =
          run.foldr Piece.push (pieces (c :: textOf atoms)) := by
        rw [List.foldr_append, pieces_of_not_startsToken hatoms.1]
        rfl
      rw [textOf_char, ← hrun, ih hatoms.2, itemsOf]
    | token token =>
      have hrest := ih hatoms []
      rw [List.foldr_nil] at hrest
      rw [textOf_token, pieces_token_append, map_toItem_foldr_push (by simp), List.map_cons,
        hrest, itemsOf]
      rfl

/-- The items found in a text are those of its decomposition. -/
theorem map_toItem_pieces_textOf {atoms : List Atom} (hatoms : Marked atoms) :
    (pieces (textOf atoms)).map Piece.toItem = itemsOf [] atoms :=
  map_toItem_foldr_pieces hatoms []

/-- The message found in a case is that of its decomposition. -/
theorem parseCase_trim_textOf {segment : List Atom} (hsegment : Marked segment) :
    parseCase (String.ofList (trim (textOf segment))) = messageOf segment := by
  have htrimmed := hsegment.of_isInfix (trimAtoms_isInfix segment)
  rw [parseCase, String.toList_ofList, trim_textOf, map_toItem_pieces_textOf htrimmed,
    messageOf, Message.ofItems]
  cases itemsOf [] (trimAtoms segment) with
  | nil => rfl
  | cons item items => rfl

/-! ## The tokens of the messages -/

/-- What a token stands for is no run. -/
theorem Token.isRun_item (token : Token) : token.item.isRun = false := by
  rcases token with ⟨text, item, htoken⟩
  cases htoken <;> rfl

private theorem filter_runItems (run : List Char) :
    (runItems run).filter (fun item => !item.isRun) = [] := by
  unfold runItems
  split
  · rfl
  · rfl

private theorem filter_itemsOf (run : List Char) (atoms : List Atom) :
    (itemsOf run atoms).filter (fun item => !item.isRun) = atoms.filterMap Atom.item? := by
  induction atoms generalizing run with
  | nil => exact filter_runItems run
  | cons atom atoms ih =>
    cases atom with
    | char c =>
      rw [itemsOf, ih]
      rfl
    | token token =>
      rw [itemsOf, List.filter_append, filter_runItems, List.nil_append,
        List.filter_cons_of_pos (by simp [token.isRun_item]), ih]
      rfl

/-- White space at the ends holds no tokens. -/
private theorem filterMap_trimAtoms (atoms : List Atom) :
    (trimAtoms atoms).filterMap Atom.item? = atoms.filterMap Atom.item? := by
  have hfront : ∀ atoms : List Atom,
      (atoms.dropWhile Atom.isBlank).filterMap Atom.item? = atoms.filterMap Atom.item? := by
    intro atoms
    induction atoms with
    | nil => rfl
    | cons atom atoms ih =>
      cases atom with
      | char c =>
        rw [List.dropWhile_cons]
        split
        · exact ih
        · rfl
      | token token => rfl
  have hback : ∀ atoms : List Atom,
      (atoms.rdropWhile Atom.isBlank).filterMap Atom.item? = atoms.filterMap Atom.item? := by
    intro atoms
    rw [List.rdropWhile, List.filterMap_reverse, hfront, List.filterMap_reverse,
      List.reverse_reverse]
  rw [trimAtoms, hback, hfront]

/-- The tokens of a message are those of its case. -/
theorem tokens_messageOf (segment : List Atom) :
    (messageOf segment).tokens = segment.filterMap Atom.item? := by
  have hitems := filter_itemsOf [] (trimAtoms segment)
  rw [filterMap_trimAtoms] at hitems
  rw [← hitems, messageOf]
  split
  · rename_i hnil
    rw [hnil]
    rfl
  · rfl

/-- The tokens of a decomposition are those of its cases: a bar is no token. -/
private theorem flatMap_filterMap_cutAtoms (previous : Option Atom) (atoms : List Atom) :
    (cutAtoms previous atoms).flatMap (List.filterMap Atom.item?) =
      atoms.filterMap Atom.item? := by
  induction atoms generalizing previous with
  | nil => rfl
  | cons atom atoms ih =>
    have hrest := ih (some atom)
    obtain ⟨first, others, hcut⟩ :=
      List.exists_cons_of_ne_nil (cutAtoms_ne_nil (some atom) atoms)
    rw [cutAtoms]
    split
    · rename_i hbar
      rw [List.flatMap_cons, hrest, hbar.1]
      rfl
    · rw [hcut, List.flatMap_cons] at hrest
      rw [hcut, List.modifyHead_cons, List.flatMap_cons, ← List.singleton_append,
        List.filterMap_append, List.append_assoc, hrest, ← List.filterMap_append]
      rfl

/-! ## Templates -/

/-- Whether there is a plural group depends on the number of cases alone. -/
private theorem parse_eq_casesOf (template : String) :
    parse template = casesOf ((split template).map parseCase) := by
  unfold parse
  cases (split template).map parseCase with
  | nil => rfl
  | cons message messages => cases messages <;> rfl

theorem parse_of_decomposed {template : String} {atoms : List Atom}
    (hatoms : Decomposed template.toList atoms) : parse template = messagesOf atoms := by
  obtain ⟨htext, hmarked⟩ := decomposed_iff_marked.mp hatoms
  have hcases : (split template).map parseCase = (cutAtoms none atoms).map messageOf := by
    have hstart : cut false (textOf atoms) = (cutAtoms none atoms).map textOf :=
      cut_textOf hmarked none
    rw [split, ← htext, hstart, List.map_map, List.map_map]
    refine List.map_congr_left ?_
    intro segment hsegment
    exact parseCase_trim_textOf (hmarked.of_isInfix (isInfix_of_mem_cutAtoms hsegment))
  rw [parse_eq_casesOf, hcases, messagesOf]

theorem toList_casesOf (messages : List Message) :
    (casesOf messages).toList = messages := by
  unfold casesOf
  split <;> rfl

private theorem flatMap_tokens_messagesOf (atoms : List Atom) :
    (messagesOf atoms).toList.flatMap Message.tokens = atoms.filterMap Atom.item? := by
  rw [messagesOf, toList_casesOf, List.flatMap_map, ← flatMap_filterMap_cutAtoms none atoms]
  exact List.flatMap_congr fun segment _ => tokens_messageOf segment

/-- Every template decomposes in exactly one way into its tokens, leftmost first, and
the characters that belong to none.  Parsing it gives the messages of its
decomposition, and the tokens of these are the tokens of the template, in order. -/
theorem parse_eq_messagesOf (template : String) :
    ∃ atoms, (∀ others, Decomposed template.toList others ↔ others = atoms) ∧
      parse template = messagesOf atoms ∧
      (parse template).toList.flatMap Message.tokens = atoms.filterMap Atom.item? := by
  obtain ⟨atoms, hatoms⟩ := exists_decomposed_iff_eq template.toList
  have hparse := parse_of_decomposed ((hatoms atoms).mpr rfl)
  refine ⟨atoms, hatoms, hparse, ?_⟩
  rw [hparse]
  exact flatMap_tokens_messagesOf atoms

end Template

end Phrasebook

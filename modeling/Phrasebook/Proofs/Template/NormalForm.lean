import Mathlib.Data.List.Chain
import Phrasebook.Proofs.Outline
import Phrasebook.Proofs.Template.Parsing

/-!
# The normal form of parsed messages

A template is read from left to right, and a run of characters is only ended by a token
or by the end of its case.  So the messages of a template have a normal form: text is
never split in two and never empty, keys and literals hold what their tokens may hold,
and there are no links.  A message of one empty text stands for a case with nothing in
it.

Main results:

- Definition `Message.Normal`: messages in normal form.
- Theorem `normal_parseCase`: every case is parsed into a message in normal form.
- Theorem `normal_of_mem_parse`: so are all cases of every template.
-/

namespace Phrasebook

/-! ## Items and messages in normal form -/

/-- A key that a run of letters, digits, underscores and points stands for: digits alone
are a name only when their number does not fit 64 bits. -/
def Key.Normal : Key → Prop
  | .named name =>
      name ≠ "" ∧ (∀ c ∈ name.toList, c.isAlphanum = true ∨ c = '_' ∨ c = '.') ∧
        ((∃ c ∈ name.toList, c.isDigit = false) ∨
          18446744073709551616 ≤ Nat.ofDigitChars 10 name.toList 0)
  | .index place => place.val < 18446744073709551616

/-- An item that is no empty text and no link, and holds what tokens may hold. -/
def Item.Normal : Item → Prop
  | .text value => value ≠ ""
  | .literal value => '\'' ∉ value.toList
  | .placeholder key => key.Normal
  | .linked _ _ => False

/-- A message with an item at least, no two texts side by side, and nothing but normal
items unless it is one empty text. -/
structure Message.Normal (message : Message) : Prop where
  some : message.items ≠ []
  apart : message.items.IsChain fun a b => a.isRun = false ∨ b.isRun = false
  items : message.items = [.text ""] ∨ ∀ item ∈ message.items, item.Normal

/-- A message in normal form raises no warning. -/
theorem Message.Normal.filterMap_warning? {message : Message} (hmessage : message.Normal) :
    message.items.filterMap Item.warning? = [] := by
  rcases hmessage.items with hempty | hitems
  · rw [hempty]
    rfl
  · rw [List.filterMap_eq_nil_iff]
    intro item hitem
    cases item with
    | linked key modifier => exact (hitems _ hitem).elim
    | _ => rfl

namespace Template

/-! ## Tokens and runs -/

/-- What a token stands for is in normal form. -/
theorem Token.normal_item (token : Token) : token.item.Normal := by
  rcases token with ⟨text, item, htoken⟩
  cases htoken with
  | literal hbefore hafter hcontent => simpa [Item.Normal] using hcontent
  | index hbefore hafter hsome hdigits hfits => exact hfits
  | @named before name after hbefore hafter hsome hname hother =>
    refine ⟨?_, ?_, ?_⟩
    · simpa [← String.toList_inj] using hsome
    · intro c hc
      rw [String.toList_ofList] at hc
      simpa [isNameChar, or_assoc] using hname c hc
    · rw [String.toList_ofList]
      by_contra hnone
      simp only [not_or, not_exists, not_and, Bool.not_eq_false, not_le] at hnone
      exact hother hnone

/-- Text that was not empty is not empty without the backslashes in front of its bars. -/
theorem runText_ne_nil {s : List Char} (hs : s ≠ []) : runText s ≠ [] := by
  rw [← unescapeBars_eq_runText]
  cases s using unescapeBars.induct with
  | case1 s ih => simp [unescapeBars]
  | case2 c s hescape ih => rw [unescapeBars.eq_2 c s hescape]; simp
  | case3 => exact absurd rfl hs

/-- The text of a run is not empty. -/
theorem normal_of_mem_runItems {run : List Char} {item : Item} (hitem : item ∈ runItems run) :
    item.Normal := by
  unfold runItems at hitem
  split at hitem
  · simp at hitem
  · rename_i hrun
    rw [List.mem_singleton.mp hitem]
    simpa [Item.Normal, ← String.toList_inj] using runText_ne_nil hrun

/-! ## Cases -/

/-- The items of atoms are in normal form. -/
theorem normal_of_mem_itemsOf {run : List Char} {atoms : List Atom} {item : Item}
    (hitem : item ∈ itemsOf run atoms) : item.Normal := by
  induction atoms generalizing run with
  | nil => exact normal_of_mem_runItems hitem
  | cons atom atoms ih =>
    cases atom with
    | char c => exact ih hitem
    | token token =>
      rw [itemsOf, List.mem_append, List.mem_cons] at hitem
      rcases hitem with hitem | rfl | hitem
      · exact normal_of_mem_runItems hitem
      · exact token.normal_item
      · exact ih hitem

/-- A token stands between the texts of any two runs. -/
theorem isChain_itemsOf (run : List Char) (atoms : List Atom) :
    (itemsOf run atoms).IsChain fun a b => a.isRun = false ∨ b.isRun = false := by
  have hrun : ∀ run, (runItems run).IsChain fun a b => a.isRun = false ∨ b.isRun = false := by
    intro run
    unfold runItems
    split <;> simp
  induction atoms generalizing run with
  | nil => exact hrun run
  | cons atom atoms ih =>
    cases atom with
    | char c => exact ih (run ++ [c])
    | token token =>
      rw [itemsOf, List.isChain_append, List.isChain_cons]
      refine ⟨hrun run, ⟨fun b _ => Or.inl token.isRun_item, ih []⟩, fun a _ b hb => Or.inr ?_⟩
      rw [List.head?_cons, Option.mem_some_iff] at hb
      exact hb ▸ token.isRun_item

/-- The message of items in normal form is in normal form, also without any items. -/
theorem normal_ofItems {items : List Item} (hitems : ∀ item ∈ items, item.Normal)
    (hchain : items.IsChain fun a b => a.isRun = false ∨ b.isRun = false) :
    (Message.ofItems items).Normal := by
  cases items with
  | nil => exact ⟨by simp [Message.ofItems], List.isChain_singleton _, Or.inl rfl⟩
  | cons item items => exact ⟨List.cons_ne_nil _ _, hchain, Or.inr hitems⟩

/-- Every case is parsed into a message in normal form. -/
theorem normal_parseCase (source : String) : (parseCase source).Normal := by
  obtain ⟨atoms, htext, hatoms⟩ := exists_marked source.toList
  rw [parseCase, ← htext, map_toItem_pieces_textOf hatoms]
  exact normal_ofItems (fun item hitem => normal_of_mem_itemsOf hitem) (isChain_itemsOf [] atoms)

/-! ## Templates -/

/-- The messages of a template are those of its cases, in order. -/
theorem toList_parse (template : String) :
    (parse template).toList = (split template).map parseCase := by
  unfold parse
  split
  · rename_i hcases
    exact hcases.symm
  · rfl

/-- A template has a case at least. -/
theorem toList_parse_ne_nil (template : String) : (parse template).toList ≠ [] := by
  simp [toList_parse, split, cut_ne_nil]

/-- Every case of a template is in normal form. -/
theorem normal_of_mem_parse {template : String} {message : Message}
    (hmessage : message ∈ (parse template).toList) : message.Normal := by
  rw [toList_parse, List.mem_map] at hmessage
  obtain ⟨source, -, rfl⟩ := hmessage
  exact normal_parseCase source

/-- A plural group has two cases at least. -/
theorem two_le_length_of_parse {template : String} {messages : List Message}
    (hparse : parse template = .plural messages) : 2 ≤ messages.length := by
  have hsome := toList_parse_ne_nil template
  rw [hparse] at hsome
  unfold parse at hparse
  split at hparse
  · cases hparse
  · rename_i hmany
    injection hparse with hmessages
    match messages, hsome, hmessages with
    | [message], _, hmessages => exact absurd hmessages (hmany message)
    | first :: second :: others, _, _ => simp

end Template

end Phrasebook

import Mathlib
import Phrasebook.Proofs.Compile.FixedPhrases
import Phrasebook.Proofs.Entries
import Phrasebook.Proofs.Render.Keys
import Phrasebook.Proofs.Template.NormalForm

/-!
# Sequences and numbered values

A sequence answers places, and named values answer a place by its decimal numeral.  So a
sequence can be given as named values as well, each under the numeral of its place.  The
phrases of templates cannot tell the two apart.  They could by a name that is a numeral, but
digits alone are a name only when their value does not fit 64 bits, and then no place has
that numeral.

Main results:

- Definition `Entries.numbered`: the values of a sequence under the numerals of their places.
- Theorem `Entries.get?_show_of_perm_numbered`: numbered values have for the keys of
  templates what the sequence has.
- Theorem `normal_of_mem_plan`: the keys of the phrases of a template.
- Theorem `evaluate_numbered`: phrases of templates say the same in both contexts.
-/

namespace Phrasebook

/-! ## Numbered values -/

/-- The value of the numeral of a place is the place. -/
theorem ofDigitChars_toString (place : Nat) :
    Nat.ofDigitChars 10 (toString place).toList 0 = place := by
  rw [Nat.toString_eq_repr, Nat.toList_repr, Nat.ofDigitChars_ten_toDigits]

namespace Entries

variable {α : Type}

/-- The values of a sequence, each under the decimal numeral of its place. -/
def numbered (items : List α) : Entries α :=
  items.zipIdx.map fun item => (toString item.2, item.1)

/-- A value stands under the numeral of its place. -/
theorem mem_numbered_iff {items : List α} {name : String} {value : α} :
    (name, value) ∈ numbered items ↔
      ∃ place : Nat, name = toString place ∧ items[place]? = some value := by
  rw [numbered, List.mem_map]
  constructor
  · rintro ⟨⟨found, place⟩, hitem, hentry⟩
    cases hentry
    exact ⟨place, rfl, List.mem_zipIdx_iff_getElem?.mp hitem⟩
  · rintro ⟨place, rfl, hvalue⟩
    exact ⟨(value, place), List.mem_zipIdx_iff_getElem?.mpr hvalue, rfl⟩

/-- Numbered values have different names. -/
theorem nodup_keys_numbered (items : List α) : (keys (numbered items)).Nodup := by
  have hkeys : keys (numbered items) = (List.range items.length).map toString := by
    rw [keys, numbered, List.map_map, List.range_eq_range', ← List.zipIdx_map_snd 0 items,
      List.map_map]
    rfl
  rw [hkeys]
  exact List.Nodup.map (fun _ _ => Nat.repr_injective) List.nodup_range

variable {entries : Entries α} {items : List α}

/-- Under the numeral of a place the value at that place is found, in whatever order the
entries stand. -/
theorem get?_of_perm_numbered (hentries : entries.Perm (numbered items)) (place : Nat) :
    get? entries (toString place) = items[place]? := by
  have hnames : (keys entries).Nodup :=
    (hentries.map Prod.fst).nodup_iff.mpr (nodup_keys_numbered items)
  ext value
  rw [get?_eq_some_iff hnames, hentries.mem_iff, mem_numbered_iff]
  constructor
  · rintro ⟨other, hsame, hvalue⟩
    rwa [Nat.repr_injective hsame]
  · intro hvalue
    exact ⟨place, rfl, hvalue⟩

/-- The name of a placeholder is the numeral of no place: one of its characters is no digit,
or its value is too large. -/
theorem not_mem_keys_of_perm_numbered (hentries : entries.Perm (numbered items))
    (hlength : items.length ≤ 18446744073709551616) {name : String}
    (hname : (Key.named name).Normal) : name ∉ keys entries := by
  rw [keys, List.mem_map]
  rintro ⟨⟨numeral, value⟩, hentry, rfl⟩
  obtain ⟨place, hnumeral, hvalue⟩ := mem_numbered_iff.mp (hentries.mem_iff.mp hentry)
  have hplace : place < items.length := (List.getElem?_eq_some_iff.mp hvalue).1
  subst hnumeral
  rcases hname with ⟨-, -, ⟨c, hc, hother⟩ | hlarge⟩
  · rw [Nat.toString_eq_repr, Nat.toList_repr] at hc
    rw [Nat.isDigit_of_mem_toDigits (by decide) (by decide) hc] at hother
    cases hother
  · rw [ofDigitChars_toString] at hlarge
    omega

end Entries

/-! ## Sequences and named values as contexts -/

section

variable {α : Type}

/-- What a sequence has for a key: the value at a place, and nothing for a name. -/
def Key.valueIn? (items : List α) : Key → Option α
  | .named _ => none
  | .index place => items[place.val]?

theorem Context.ofList_eq (items : List String) (key : Key) :
    ofList items key = key.valueIn? items := by
  cases key <;> rfl

theorem Context.ofJson_array (items : List Json) (key : Key) :
    ofJson (.array items) key = (key.valueIn? items).map Json.plainText := by
  cases key <;> rfl

/-- Numbered values have for the keys of templates what the sequence has. -/
theorem Entries.get?_show_of_perm_numbered {entries : Entries α} {items : List α}
    (hentries : entries.Perm (numbered items)) (hlength : items.length ≤ 18446744073709551616)
    {key : Key} (hkey : key.Normal) : get? entries key.show = key.valueIn? items := by
  cases key with
  | named name => exact get?_eq_none_iff.mpr (not_mem_keys_of_perm_numbered hentries hlength hkey)
  | index place => exact get?_of_perm_numbered hentries place.val

end

/-! ## The phrases of templates -/

/-- The keys of the phrases of a template are those of its placeholders. -/
theorem normal_of_mem_plan {template : String} {phrase : Phrase}
    (hphrase : phrase ∈ (Template.plan template).result.toList) :
    ∀ key ∈ phrase.keys, key.Normal := by
  rw [Template.plan, plan_eq_map, Cases.toList_map] at hphrase
  obtain ⟨message, hmessage, rfl⟩ := List.mem_map.mp hphrase
  rw [message.keys_plan]
  intro key hkey
  obtain ⟨item, hitem, hasked⟩ := List.mem_filterMap.mp hkey
  rcases (Template.normal_of_mem_parse hmessage).items with hempty | hitems
  · rw [hempty, List.mem_singleton] at hitem
    cases hitem
    cases hasked
  · have hnormal := hitems item hitem
    cases item with
    | placeholder asked =>
      cases hasked
      exact hnormal
    | _ => cases hasked

/-- Every case of a template says the same when its values are given in a sequence as when
they are given under the decimal numerals of their places, in whatever order.  This holds for
JSON values and for other values that can be shown as text. -/
theorem evaluate_numbered (template : String) :
    ∀ phrase ∈ (Template.plan template).result.toList,
      (∀ (items : List Json) (entries : Entries Json),
        items.length ≤ 18446744073709551616 → entries.Perm (Entries.numbered items) →
        phrase.evaluate (.ofJson (.array items)) =
          phrase.evaluate (.ofJson (.object entries))) ∧
      ∀ (items : List String) (entries : Entries String),
        items.length ≤ 18446744073709551616 → entries.Perm (Entries.numbered items) →
        phrase.evaluate (.ofList items) = phrase.evaluate (.ofEntries entries) := by
  intro phrase hphrase
  have hnormal := normal_of_mem_plan hphrase
  refine ⟨?_, ?_⟩
  · intro items entries hlength hentries
    apply Phrase.evaluate_congr
    intro key hkey
    have hfound := Entries.get?_show_of_perm_numbered hentries hlength (hnormal key hkey)
    rw [Context.ofJson_array, Context.ofJson, hfound]
  · intro items entries hlength hentries
    apply Phrase.evaluate_congr
    intro key hkey
    have hfound := Entries.get?_show_of_perm_numbered hentries hlength (hnormal key hkey)
    rw [Context.ofList_eq, Context.ofEntries, hfound]

/-- A template that asks for the second value, for the first one with a leading zero, and for
a name whose digits do not fit 64 bits. -/
def placesTemplate : String := "\x7b1\x7d, \x7b00\x7d and \x7b18446744073709551616\x7d."

/-- The phrase of this template. -/
def placesPhrase : Phrase :=
  .interpolated ⟨"", [(.index ⟨1, by decide⟩, ", "), (.index ⟨0, by decide⟩, " and "),
    (.named "18446744073709551616", ".")]⟩

theorem evaluate_numbered_places :
    placesPhrase ∈ (Template.plan placesTemplate).result.toList ∧
      [Json.string "tea", .null].length ≤ 18446744073709551616 ∧
      [("1", Json.null), ("0", .string "tea")].Perm
        (Entries.numbered [Json.string "tea", .null]) ∧
      placesPhrase.evaluate (.ofJson (.array [.string "tea", .null])) = ", tea and ." ∧
      placesPhrase.evaluate (.ofJson (.object [("1", .null), ("0", .string "tea")])) =
        ", tea and ." ∧
      ["tea", "milk"].length ≤ 18446744073709551616 ∧
      [("0", "tea"), ("1", "milk")].Perm (Entries.numbered ["tea", "milk"]) ∧
      placesPhrase.evaluate (.ofEntries [("0", "tea"), ("1", "milk")]) = "milk, tea and ." := by
  have hphrase : placesPhrase ∈ (Template.plan placesTemplate).result.toList := by
    decide +kernel
  have hlength : [Json.string "tea", .null].length ≤ 18446744073709551616 := by decide
  have hentries : [("1", Json.null), ("0", .string "tea")].Perm
      (Entries.numbered [Json.string "tea", .null]) := List.Perm.swap _ _ _
  have htexts : [("0", "tea"), ("1", "milk")].Perm (Entries.numbered ["tea", "milk"]) :=
    List.Perm.refl _
  have hsame := evaluate_numbered placesTemplate placesPhrase hphrase
  have hjson := hsame.1 _ _ hlength hentries
  have hlist := hsame.2 _ _ (by decide) htexts
  have harray : placesPhrase.evaluate (.ofJson (.array [.string "tea", .null])) =
      ", tea and ." := by decide +kernel
  have hsequence : placesPhrase.evaluate (.ofList ["tea", "milk"]) = "milk, tea and ." := by
    decide +kernel
  exact ⟨hphrase, hlength, hentries, harray, hjson.symm.trans harray, by decide, htexts,
    hlist.symm.trans hsequence⟩

end Phrasebook

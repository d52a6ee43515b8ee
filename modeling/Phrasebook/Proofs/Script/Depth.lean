import Phrasebook.Proofs.Script.Places
import Phrasebook.Proofs.Script.Trees

/-!
# Depths and budgets of the reader

The reader of values counts down how deep values may still nest, and the reader of
sequences how many items may still come.  Every array or object that is entered and
every item that is read takes a character at least, so a count of the length of the
text never runs out, and the counts can be left out of everything that is said about
reading.

Main results:

- Theorems `readItems_congr` and `readValue_congr`: what is read does not depend on
  how large the counts are.
- Definitions `readSequence` and `readTree`: sequences and values without counts.
- Theorems `readSequence_of_open`, `readTree_eq` and `readSource_eq`: one step of
  reading a sequence, a value and a whole source.
-/

namespace Phrasebook.Script

open Text

variable {α : Type} {s : List Char}

/-! ## Readers that shorten the text -/

/-- A reader that leaves no more than it was given. -/
def Shrinks (item : Reader Fault α) : Prop :=
  ∀ s value rest, item s = .ok (value, rest) → rest.length ≤ s.length

/-- A reader that stays in the text leaves no more than it was given. -/
theorem shrinks_of_staysIn {item : Reader Fault α}
    (hitem : ∀ s, StaysIn s Prod.snd (item s)) : Shrinks item := by
  intro s value rest hread
  have hsuffix := hitem s
  rw [hread] at hsuffix
  exact List.IsSuffix.length_le hsuffix

theorem shrinks_readName : Shrinks readName :=
  shrinks_of_staysIn fun _ => staysIn_readName List.suffix_rfl

theorem shrinks_readValue (depth : Nat) : Shrinks (readValue depth) :=
  shrinks_of_staysIn fun _ => staysIn_readValue depth List.suffix_rfl

theorem Shrinks.readEntry {item : Reader Fault α} (hitem : Shrinks item) :
    Shrinks (readEntry item) := by
  intro s entry rest hread
  obtain ⟨⟨name, behind⟩, hname, hread⟩ := ok_of_bind hread
  obtain ⟨value, hcolon, hread⟩ := ok_of_bind hread
  obtain ⟨⟨found, left⟩, hvalue, hread⟩ := ok_of_bind hread
  simp only [Except.ok.injEq, Prod.mk.injEq] at hread
  have hbehind := shrinks_readName s name behind hname
  have hstart := length_trimStart_le behind
  have hcolonLength := length_of_expect hcolon
  have hleft := hitem value found left hvalue
  rw [← hread.2]
  omega

/-! ## Counts do not matter -/

/-- A sequence is read alike by readers of items that agree on texts of its length, and
with any budgets above this length. -/
theorem readItems_congr {close : Char} {item other : Reader Fault α}
    (hagree : ∀ t, t.length ≤ s.length → item t = other t) (hitem : Shrinks item)
    {budget more : Nat} (hbudget : s.length < budget) (hmore : s.length < more) :
    readItems close item budget s = readItems close other more s := by
  induction budget generalizing more s with
  | zero => omega
  | succ budget ih =>
    obtain ⟨more, rfl⟩ : ∃ less, more = less + 1 := ⟨more - 1, by omega⟩
    have hstart := length_trimStart_le s
    simp only [readItems]
    split
    · rfl
    rw [← hagree _ hstart]
    cases hread : item (trimStart s) with
    | error stop => rfl
    | ok read =>
      obtain ⟨first, rest⟩ := read
      have hrest := hitem _ _ _ hread
      have hbehind := length_trimStart_le rest
      simp only [bind, Except.bind]
      split
      · rename_i next hcomma
        rw [hcomma, List.length_cons] at hbehind
        have hothers : readItems close item budget next = readItems close other more next :=
          ih (fun t ht => hagree t (by omega)) (by omega) (by omega)
        rw [hothers]
      · rfl

theorem readEntry_congr {item other : Reader Fault α}
    (hagree : ∀ t, t.length ≤ s.length → item t = other t) :
    readEntry item s = readEntry other s := by
  unfold readEntry
  cases hname : readName s with
  | error stop => rfl
  | ok read =>
    obtain ⟨name, rest⟩ := read
    have hrest := shrinks_readName s name rest hname
    have hbehind := length_trimStart_le rest
    simp only [bind, Except.bind]
    cases hcolon : expect ':' (trimStart rest) with
    | error stop => rfl
    | ok value =>
      have hvalue := length_of_expect hcolon
      simp only [hagree value (by omega)]

/-- A value is read alike by readers of items that agree on shorter texts. -/
theorem readValueWith_congr {item other : Reader Fault (Tree Phrase)}
    (hagree : ∀ t, t.length < s.length → item t = other t) (hitem : Shrinks item) :
    readValueWith item s = readValueWith other s := by
  have hstart := length_trimStart_le s
  unfold readValueWith
  split
  · rfl
  rename_i c rest hcons
  rw [hcons, List.length_cons] at hstart
  have hshorter : ∀ t, t.length ≤ rest.length → item t = other t :=
    fun t ht => hagree t (by omega)
  have hbudget : rest.length < rest.length + 1 := Nat.lt_succ_self _
  have hitems : readItems ']' item (rest.length + 1) rest =
      readItems ']' other (rest.length + 1) rest :=
    readItems_congr hshorter hitem hbudget hbudget
  have hentries : readItems '}' (readEntry item) (rest.length + 1) rest =
      readItems '}' (readEntry other) (rest.length + 1) rest :=
    readItems_congr (fun t ht => readEntry_congr fun u hu => hshorter u (hu.trans ht))
      hitem.readEntry hbudget hbudget
  rw [hitems, hentries]

/-- No value nests deeper than its text is long. -/
theorem readValue_congr {depth deeper : Nat} (hdepth : s.length ≤ depth)
    (hdeeper : s.length ≤ deeper) : readValue depth s = readValue deeper s := by
  induction depth generalizing deeper s with
  | zero =>
    obtain rfl : s = [] := List.eq_nil_of_length_eq_zero (by omega)
    cases deeper <;> rfl
  | succ depth ih =>
    cases deeper with
    | zero =>
      obtain rfl : s = [] := List.eq_nil_of_length_eq_zero (by omega)
      rfl
    | succ deeper =>
      exact readValueWith_congr (fun t ht => ih (by omega) (by omega))
        (shrinks_readValue depth)

/-! ## Values without counts -/

/-- A value, however deep it nests. -/
def readTree : Reader Fault (Tree Phrase) :=
  fun s => readValue s.length s

theorem readTree_eq_readValue {depth : Nat} (hdepth : s.length ≤ depth) :
    readTree s = readValue depth s :=
  readValue_congr le_rfl hdepth

theorem shrinks_readTree : Shrinks readTree :=
  fun s => shrinks_readValue s.length s

/-- A value is read by its first character, and its items by the same reader. -/
theorem readTree_eq (s : List Char) : readTree s = readValueWith readTree s := by
  rw [readTree_eq_readValue (Nat.le_succ s.length)]
  exact readValueWith_congr (fun t ht => (readTree_eq_readValue ht.le).symm)
    (shrinks_readValue s.length)

/-- White space in front of a value does not matter. -/
theorem readTree_trimStart (s : List Char) : readTree (trimStart s) = readTree s := by
  rw [readTree_eq, readTree_eq s, readValueWith_trimStart]

/-- A whole source is an optional header, a value and a footer. -/
theorem readSource_eq (text : List Char) :
    readSource text = readHeader text >>= fun s =>
      readTree s >>= fun read => (readFooter read.2).map fun _ => read.1 := by
  unfold readSource
  cases hheader : readHeader text with
  | error stop => rfl
  | ok s =>
    have hlength : s.length ≤ text.length := by
      have hstays := staysIn_readHeader text
      rw [hheader] at hstays
      exact List.IsSuffix.length_le hstays
    simp only [bind, Except.bind, readTree_eq_readValue (Nat.le_succ_of_le hlength)]
    cases readValue (text.length + 1) s with
    | error stop => rfl
    | ok read => cases readFooter read.2 <;> rfl

/-! ## Sequences without counts -/

/-- The items up to the closing character, however many there are. -/
def readSequence (close : Char) (item : Reader Fault α) : Reader Fault (List α) :=
  fun s => readItems close item (s.length + 1) s

/-- The rest of a sequence from behind an item: more items behind a comma, or the
closing character. -/
def readOthers (close : Char) (item : Reader Fault α) (read : α × List Char) :
    Except (Stop Fault) (List α × List Char) :=
  match trimStart read.2 with
  | ',' :: next =>
      (readSequence close item next).map fun others => (read.1 :: others.1, others.2)
  | behind => (expect close behind).map fun rest => ([read.1], rest)

theorem readOthers_comma {close : Char} {item : Reader Fault α} {first : α}
    {rest next : List Char} (hcomma : trimStart rest = ',' :: next) :
    readOthers close item (first, rest) =
      (readSequence close item next).map fun others => (first :: others.1, others.2) := by
  simp only [readOthers, hcomma]

/-- A sequence that is not closed at once is an item and what stands behind it. -/
theorem readSequence_of_open {close : Char} {item : Reader Fault α} (hitem : Shrinks item)
    (hopen : (trimStart s).head? ≠ some close) :
    readSequence close item s = item (trimStart s) >>= readOthers close item := by
  have hstart := length_trimStart_le s
  rw [readSequence, readItems, if_neg hopen]
  cases hread : item (trimStart s) with
  | error stop => rfl
  | ok read =>
    obtain ⟨first, rest⟩ := read
    have hrest := hitem _ _ _ hread
    have hbehind := length_trimStart_le rest
    simp only [bind, Except.bind]
    split
    · rename_i next hcomma
      rw [hcomma, List.length_cons] at hbehind
      have hnext : readItems close item s.length next = readSequence close item next :=
        readItems_congr (fun _ _ => rfl) hitem (by omega) (Nat.lt_succ_self _)
      rw [readOthers_comma hcomma, hnext]
      cases readSequence close item next <;> rfl
    · rename_i hlast
      have hend : readOthers close item (first, rest) =
          (expect close (trimStart rest)).map fun rest => ([first], rest) := by
        unfold readOthers
        split
        · rename_i next hcomma
          exact absurd hcomma (hlast next)
        · rfl
      rw [hend]
      cases expect close (trimStart rest) <;> rfl

end Phrasebook.Script

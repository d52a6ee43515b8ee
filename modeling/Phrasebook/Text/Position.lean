/-!
# Places in a text

A place in a text is counted in bytes of its UTF-8 form.  A count may fall inside a character:
readers that work on raw bytes can stop there, and the line and column of such a place are still
defined.
-/

namespace Phrasebook.Text

/-- The number of bytes in the UTF-8 form of a text. -/
def byteLength : List Char → Nat
  | [] => 0
  | c :: text => c.utf8Size + byteLength text

@[simp] theorem byteLength_nil : byteLength [] = 0 := rfl

@[simp] theorem byteLength_cons (c : Char) (text : List Char) :
    byteLength (c :: text) = c.utf8Size + byteLength text := rfl

@[simp] theorem byteLength_append (a b : List Char) :
    byteLength (a ++ b) = byteLength a + byteLength b := by
  induction a with
  | nil => simp
  | cons c a ih => simp [ih, Nat.add_assoc]

/-- A line and a column of a text.  Lines are counted from one; the column is the number of bytes
between the start of the line and the place. -/
structure Position where
  line : Nat
  column : Nat
  deriving DecidableEq, Repr

/-- The position reached from `here` by going on for `count` bytes of `text`. -/
def Position.advance (here : Position) : (text : List Char) → (count : Nat) → Position
  | [], count => { here with column := here.column + count }
  | c :: text, count =>
      if count < c.utf8Size then { here with column := here.column + count }
      else if c = '\n' then advance ⟨here.line + 1, 0⟩ text (count - 1)
      else advance ⟨here.line, here.column + c.utf8Size⟩ text (count - c.utf8Size)

/-- The position of the place that has `count` bytes of `text` before it. -/
def positionAt (text : List Char) (count : Nat) : Position :=
  Position.advance ⟨1, 0⟩ text count

/-- The characters that fill exactly the next `count` bytes of a text, and what follows them.  At
the end of the text fewer bytes will do; a count that ends inside a character has no answer. -/
def takeBytes : (count : Nat) → List Char → Option (List Char × List Char)
  | _, [] => some ([], [])
  | 0, text => some ([], text)
  | count, c :: text =>
      if c.utf8Size ≤ count then
        (takeBytes (count - c.utf8Size) text).map fun taken => (c :: taken.1, taken.2)
      else none

/-- What is left when bytes were taken is a rest of the text. -/
theorem suffix_of_takeBytes {count : Nat} {s taken rest : List Char}
    (hs : takeBytes count s = some (taken, rest)) : rest <:+ s := by
  induction s generalizing count taken with
  | nil =>
    simp only [takeBytes, Option.some.injEq, Prod.mk.injEq] at hs
    exact hs.2 ▸ List.suffix_rfl
  | cons c s ih =>
    cases count with
    | zero =>
      simp only [takeBytes, Option.some.injEq, Prod.mk.injEq] at hs
      exact hs.2 ▸ List.suffix_rfl
    | succ count =>
      simp only [takeBytes] at hs
      split at hs
      · obtain ⟨⟨others, behind⟩, hread, heq⟩ := Option.map_eq_some_iff.mp hs
        simp only [Prod.mk.injEq] at heq
        exact (ih (heq.2 ▸ hread)).trans (List.suffix_cons c s)
      · simp at hs

end Phrasebook.Text

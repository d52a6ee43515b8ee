import Phrasebook.Text.Block

/-!
# White space

The characters with the Unicode property `White_Space`, and texts without white space at their
ends.  Trimming only ever drops characters of this table, so `trim` leaves alone a text that
starts and ends with something visible.
-/

namespace Phrasebook.Text

/-- The first and last code points of each block with the Unicode property `White_Space`. -/
def blankBlocks : List (Nat × Nat) :=
  [(0x0009, 0x000D), (0x0020, 0x0020), (0x0085, 0x0085), (0x00A0, 0x00A0), (0x1680, 0x1680),
    (0x2000, 0x200A), (0x2028, 0x2029), (0x202F, 0x202F), (0x205F, 0x205F), (0x3000, 0x3000)]

/-- A character is blank when its code point lies in one of the blocks. -/
def isBlank (c : Char) : Bool :=
  inBlocks blankBlocks c

/-- A text without the white space at its start. -/
def trimStart (text : List Char) : List Char :=
  text.dropWhile isBlank

/-- A text without the white space at its end. -/
def trimEnd (text : List Char) : List Char :=
  (text.reverse.dropWhile isBlank).reverse

/-- A text without the white space at either end. -/
def trim (text : List Char) : List Char :=
  trimEnd (trimStart text)

@[simp] theorem trimStart_nil : trimStart [] = [] := rfl

@[simp] theorem trim_nil : trim [] = [] := rfl

/-- Leading white space is dropped one character at a time. -/
@[simp] theorem trimStart_cons_of_isBlank {c : Char} {text : List Char} (h : isBlank c = true) :
    trimStart (c :: text) = trimStart text := by
  simp [trimStart, h]

/-- A text that starts with something visible keeps its start. -/
@[simp] theorem trimStart_cons_of_not_isBlank {c : Char} {text : List Char}
    (h : isBlank c = false) : trimStart (c :: text) = c :: text := by
  simp [trimStart, h]

/-- Dropping white space never makes a text longer. -/
theorem length_trimStart_le (text : List Char) : (trimStart text).length ≤ text.length :=
  (List.dropWhile_suffix _).length_le

end Phrasebook.Text

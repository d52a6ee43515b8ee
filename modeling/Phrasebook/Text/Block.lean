/-!
# Blocks of characters

Classes of characters that a standard lists are kept as blocks of code points: each block by its
first and its last one.
-/

namespace Phrasebook.Text

/-- Whether the code point of a character lies in one of the blocks. -/
def inBlocks (blocks : List (Nat × Nat)) (c : Char) : Bool :=
  blocks.any fun block => block.1 ≤ c.toNat && c.toNat ≤ block.2

/-- A character is in a class when it lies between the ends of one of its blocks. -/
theorem inBlocks_eq_true_iff {blocks : List (Nat × Nat)} {c : Char} :
    inBlocks blocks c = true ↔ ∃ block ∈ blocks, block.1 ≤ c.toNat ∧ c.toNat ≤ block.2 := by
  simp [inBlocks]

end Phrasebook.Text

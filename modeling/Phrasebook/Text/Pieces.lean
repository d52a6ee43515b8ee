/-!
# Texts in pieces

Texts that a separator divides: the pieces between the separators, and what stands before the last
one.

Main results:

- `notMem_of_mem_splitOn` says that no piece contains the separator.
- `isInfix_intercalate` says that each of several joined texts is in the whole.
- `length_of_beforeLast?` says that what stands before the last separator is shorter than the text.
-/

namespace Phrasebook.Text

/-- Put characters in front of the first of several texts. -/
def attach (front : List Char) : List (List Char) → List (List Char)
  | [] => [front]
  | first :: others => (front ++ first) :: others

/-- What stands before the last separator, when there is one and something stands before it. -/
def beforeLast? (separator : Char) (text : List Char) : Option (List Char) :=
  match (text.reverse.dropWhile (· != separator)).tail with
  | [] => none
  | c :: rest => some (c :: rest).reverse

theorem attach_ne_nil (front : List Char) (texts : List (List Char)) : attach front texts ≠ [] := by
  cases texts <;> simp [attach]

/-- No piece between separators contains one. -/
theorem notMem_of_mem_splitOn {separator : Char} {s piece : List Char}
    (h : piece ∈ s.splitOn separator) : separator ∉ piece := by
  induction s generalizing piece with
  | nil => simp_all
  | cons c s ih =>
    obtain ⟨first, others, pieces⟩ :=
      List.exists_cons_of_ne_nil (List.splitOn_ne_nil separator s)
    rw [pieces] at ih
    rw [List.splitOn_cons_eq_if_modifyHead, pieces] at h
    split at h
    · rcases List.mem_cons.1 h with rfl | h
      · simp
      · exact ih h
    · rename_i different
      rcases List.mem_cons.1 h with rfl | h
      · intro found
        rcases List.mem_cons.1 found with same | found
        · exact different (beq_iff_eq.mpr same.symm)
        · exact ih (List.mem_cons_self ..) found
      · exact ih (List.mem_cons_of_mem _ h)

/-- What is joined is a stretch of the whole. -/
theorem isInfix_intercalate {α : Type} (separator : List α) {pieces : List (List α)}
    {piece : List α} (h : piece ∈ pieces) : piece <:+: separator.intercalate pieces := by
  induction pieces with
  | nil => simp at h
  | cons first pieces ih =>
    cases pieces with
    | nil =>
      have same : separator.intercalate [first] = piece := by
        rw [List.intercalate_singleton, List.mem_singleton.mp h]
      exact same ▸ List.infix_refl _
    | cons second pieces =>
      rw [List.intercalate_cons_cons]
      rcases List.mem_cons.mp h with rfl | h
      · rw [List.append_assoc]
        exact (List.prefix_append piece _).isInfix
      · exact (ih h).trans (List.suffix_append _ _).isInfix

/-- What stands before the last separator is shorter than the text. -/
theorem length_of_beforeLast? {separator : Char} {text shorter : List Char}
    (h : beforeLast? separator text = some shorter) : shorter.length < text.length := by
  unfold beforeLast? at h
  split at h
  · simp at h
  · rename_i c rest left
    simp only [Option.some.injEq] at h
    have bound := (List.dropWhile_suffix (l := text.reverse) (· != separator)).length_le
    have counted := congrArg List.length left
    simp only [List.length_tail, List.length_cons, List.length_reverse] at counted bound
    rw [← h, List.length_reverse, List.length_cons]
    omega

end Phrasebook.Text

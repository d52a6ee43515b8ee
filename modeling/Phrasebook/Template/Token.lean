import Phrasebook.Message
import Phrasebook.Text.Blank

/-!
# Tokens of templates

A token stands in braces, with white space allowed at either side of what they hold: a run of
letters, digits, underscores and points, or a text in single quotes that holds no single quote.
Whatever is not a token is text.

A run of digits whose value fits 64 bits asks for a place in a sequence; every other run is a name.
-/

namespace Phrasebook.Template

open Text

/-- What `inner` reads between braces, and the rest behind them. -/
def braced? (inner : List Char → Option (α × List Char)) : List Char → Option (α × List Char)
  | '{' :: s =>
      match inner (trimStart s) with
      | some (value, rest) =>
          match trimStart rest with
          | '}' :: rest => some (value, rest)
          | _ => none
      | none => none
  | _ => none

/-- A text in single quotes, and the rest behind them. -/
def quoted? : List Char → Option (List Char × List Char)
  | '\'' :: s =>
      match s.dropWhile (· != '\'') with
      | _ :: rest => some (s.takeWhile (· != '\''), rest)
      | [] => none
  | _ => none

/-- The characters of placeholder names. -/
def isNameChar (c : Char) : Bool :=
  c.isAlphanum || c = '_' || c = '.'

/-- The longest run of name characters, and the rest behind it. -/
def name? (s : List Char) : Option (List Char × List Char) :=
  match s.takeWhile isNameChar with
  | [] => none
  | name => some (name, s.dropWhile isNameChar)

/-- A literal token at the front of the text: what its quotes hold, and the rest. -/
def literal? (s : List Char) : Option (List Char × List Char) :=
  braced? quoted? s

/-- The key that a run of name characters stands for. -/
def keyOf (name : List Char) : Key :=
  if h : name.all Char.isDigit ∧ Nat.ofDigitChars 10 name 0 < 18446744073709551616 then
    .index ⟨Nat.ofDigitChars 10 name 0, h.2⟩
  else .named (String.ofList name)

/-- A token at the front of the text, and the rest. -/
def token? (s : List Char) : Option (Item × List Char) :=
  match literal? s with
  | some (text, rest) => some (.literal (String.ofList text), rest)
  | none => (braced? name? s).map fun read => (.placeholder (keyOf read.1), read.2)

/-- A token takes at least its braces. -/
theorem length_of_braced? {inner : List Char → Option (α × List Char)}
    (shrinks : ∀ s value rest, inner s = some (value, rest) → rest.length ≤ s.length)
    {s rest : List Char} {value : α} (h : braced? inner s = some (value, rest)) :
    rest.length < s.length := by
  unfold braced? at h
  split at h
  · rename_i s
    split at h
    · rename_i inside after read
      split at h
      · rename_i rest' closed
        simp only [Option.some.injEq, Prod.mk.injEq] at h
        have taken := shrinks _ _ _ read
        have front := length_trimStart_le s
        have back := length_trimStart_le after
        rw [closed, h.2] at back
        simp only [List.length_cons] at back ⊢
        omega
      · simp at h
    · simp at h
  · simp at h

theorem length_of_quoted? (s value rest : List Char) (h : quoted? s = some (value, rest)) :
    rest.length ≤ s.length := by
  unfold quoted? at h
  split at h
  · rename_i s
    split at h
    · rename_i closed
      simp only [Option.some.injEq, Prod.mk.injEq] at h
      have := (List.dropWhile_suffix (l := s) (· != '\'')).length_le
      rw [closed, h.2] at this
      simp only [List.length_cons] at this ⊢
      omega
    · simp at h
  · simp at h

theorem length_of_name? (s value rest : List Char) (h : name? s = some (value, rest)) :
    rest.length ≤ s.length := by
  unfold name? at h
  split at h
  · simp at h
  · simp only [Option.some.injEq, Prod.mk.injEq] at h
    rw [← h.2]
    exact (List.dropWhile_suffix _).length_le

/-- A literal token is never empty. -/
theorem length_of_literal? {s text rest : List Char} (h : literal? s = some (text, rest)) :
    rest.length < s.length :=
  length_of_braced? length_of_quoted? h

/-- A token is never empty. -/
theorem length_of_token? {s rest : List Char} {item : Item} (h : token? s = some (item, rest)) :
    rest.length < s.length := by
  unfold token? at h
  split at h
  · rename_i read
    simp only [Option.some.injEq, Prod.mk.injEq] at h
    exact h.2 ▸ length_of_literal? read
  · simp only [Option.map_eq_some_iff, Prod.mk.injEq] at h
    obtain ⟨read, hread, _, rfl⟩ := h
    exact length_of_braced? length_of_name? hread

end Phrasebook.Template

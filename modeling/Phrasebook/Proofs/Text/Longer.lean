import Phrasebook.Proofs.Text.Runs
import Phrasebook.Text.Reading

/-!
# Readers on texts that go on

A reader that found the end of what it reads does not care what comes later.  Most
readers see that end only by what stands behind it, so they settle for a value only
when something is left; the ones that read up to a closing character always do.

Main results:

- Definition `Extends`: a reader that left something gives the same on a longer text.
- Definition `Settles`: a reader gives the same on a longer text in any case.
- Theorems `ok_of_bind` and `ok_of_map`: what succeeded as a whole succeeded in its
  steps.
- Theorem `map_append`: what is made of a value does not matter for either.
-/

namespace Phrasebook.Text

variable {ε α β : Type}

/-! ## Steps of what succeeded -/

/-- Both steps of what succeeded did. -/
theorem ok_of_bind {first : Except ε α} {next : α → Except ε β} {result : β}
    (hresult : first >>= next = .ok result) :
    ∃ value, first = .ok value ∧ next value = .ok result := by
  cases first with
  | error cause => simp [bind, Except.bind] at hresult
  | ok value => exact ⟨value, rfl, hresult⟩

/-- A result that was made of another one comes from a success. -/
theorem ok_of_map {first : Except ε α} {make : α → β} {result : β}
    (hresult : first.map make = .ok result) :
    ∃ value, first = .ok value ∧ make value = result := by
  cases first with
  | error cause => simp [Except.map] at hresult
  | ok value => exact ⟨value, rfl, by simpa [Except.map] using hresult⟩

/-- What was made of a value leaves what the value left. -/
theorem ok_of_map_fst {first : Except ε (α × List Char)} {make : α → β} {result : β}
    {rest : List Char}
    (hresult : (first.map fun read => (make read.1, read.2)) = .ok (result, rest)) :
    ∃ value, first = .ok (value, rest) ∧ make value = result := by
  obtain ⟨⟨value, left⟩, hfirst, heq⟩ := ok_of_map hresult
  simp only [Prod.mk.injEq] at heq
  exact ⟨value, heq.2 ▸ hfirst, heq.1⟩

/-! ## Longer texts -/

/-- Where `short` left something, `long` gives the same on a text that goes on. -/
def Extends (more : List Char) (short long : Reader ε α) : Prop :=
  ∀ s value rest, short s = .ok (value, rest) → rest ≠ [] →
    long (s ++ more) = .ok (value, rest ++ more)

/-- Where `short` succeeds, `long` gives the same on a text that goes on. -/
def Settles (more : List Char) (short long : Reader ε α) : Prop :=
  ∀ s value rest, short s = .ok (value, rest) → long (s ++ more) = .ok (value, rest ++ more)

/-- What is made of a value is made of it again on a text that goes on. -/
theorem map_append {first longer : Except ε (α × List Char)} (make : α → β) {result : β}
    {rest more : List Char}
    (hread : (first.map fun read => (make read.1, read.2)) = .ok (result, rest))
    (hlonger : ∀ value, first = .ok (value, rest) → make value = result →
      longer = .ok (value, rest ++ more)) :
    (longer.map fun read => (make read.1, read.2)) = .ok (result, rest ++ more) := by
  obtain ⟨⟨value, left⟩, hfirst, heq⟩ := ok_of_map hread
  simp only [Prod.mk.injEq] at heq
  obtain ⟨rfl, rfl⟩ := heq
  rw [hlonger value hfirst rfl]
  rfl

end Phrasebook.Text

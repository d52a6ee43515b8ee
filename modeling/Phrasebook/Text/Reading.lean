import Phrasebook.Text.Position

/-!
# Reading from the front of a text

A reader takes what it reads from the front of a text and hands back the rest.  When it cannot go
on it stops with a cause and with the number of bytes that were left at that place, so the place
is known once the length of the whole text is.
-/

namespace Phrasebook.Text

/-- Why reading stopped, and how many bytes of the text were left at that place. -/
structure Stop (ε : Type) where
  cause : ε
  remaining : Nat
  deriving DecidableEq, Repr

/-- A reader takes a value from the front of a text and hands back the rest. -/
abbrev Reader (ε α : Type) := List Char → Except (Stop ε) (α × List Char)

variable {ε α : Type}

/-- Stop right before `rest`. -/
def stopBefore (cause : ε) (rest : List Char) : Except (Stop ε) α :=
  .error ⟨cause, byteLength rest⟩

/-- Stop behind the next byte of `rest`, or at the end of the text when there is none. -/
def stopPast (cause : ε) (rest : List Char) : Except (Stop ε) α :=
  .error ⟨cause, byteLength rest - 1⟩

/-- Stop at the end of the text. -/
def stopAtEnd (cause : ε) : Except (Stop ε) α :=
  .error ⟨cause, 0⟩

/-- The number of bytes of `text` before the place where reading stopped. -/
def Stop.offset (stop : Stop ε) (text : List Char) : Nat :=
  byteLength text - stop.remaining

/-- A stop is never behind the end of the text. -/
theorem Stop.offset_le (stop : Stop ε) (text : List Char) :
    stop.offset text ≤ byteLength text :=
  Nat.sub_le _ _

/-- The same stop, for a cause told in other words. -/
def Stop.map {δ : Type} (tell : ε → δ) (stop : Stop ε) : Stop δ :=
  ⟨tell stop.cause, stop.remaining⟩

end Phrasebook.Text

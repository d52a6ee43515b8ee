/-!
# Placeholder keys

What a placeholder asks for: a value by name, or a value by its place in a sequence.
-/

namespace Phrasebook

/-- A place in a sequence, counted from zero; it fits 64 bits. -/
abbrev Index := Fin 18446744073709551616

/-- What a placeholder asks for. -/
inductive Key where
  | named (name : String)
  | index (place : Index)
  deriving DecidableEq

/-- A key as it is shown: the name, or the decimal numeral of the place. -/
def Key.show : Key → String
  | .named name => name
  | .index place => toString place.val

end Phrasebook

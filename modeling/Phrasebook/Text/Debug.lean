import Phrasebook.Text.Extending
import Phrasebook.Text.Unseen

/-!
# Quoted text in reports

A text that is quoted in a report is written so that every character can be told: characters that
have no look of their own, or that change the look of the one before them, are written by their
code points.
-/

namespace Phrasebook.Text

/-- A character as it stands in a quoted text. -/
def debugChar (c : Char) : List Char :=
  if c = '"' then ['\\', '"']
  else if c = '\\' then ['\\', '\\']
  else if c = '\t' then ['\\', 't']
  else if c = '\n' then ['\\', 'n']
  else if c = '\r' then ['\\', 'r']
  else if c = '\x00' then ['\\', '0']
  else if isUnseen c || isExtending c then
    ['\\', 'u', '{'] ++ Nat.toDigits 16 c.toNat ++ ['}']
  else [c]

/-- A text in double quotes, with every character told. -/
def debugQuote (text : String) : String :=
  String.ofList ('"' :: text.toList.flatMap debugChar ++ ['"'])

end Phrasebook.Text

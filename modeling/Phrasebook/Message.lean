import Phrasebook.Cases
import Phrasebook.Key

/-!
# Messages

A message is a sequence of items: text, placeholders, and links to other messages.  Templates never
hold links, and a link has no text of its own: whoever plans a message leaves it out.
-/

namespace Phrasebook

/-- One piece of a message. -/
inductive Item where
  /-- Text between placeholders. -/
  | text (value : String)
  /-- Text that was written in quotes. -/
  | literal (value : String)
  /-- A place where a value goes. -/
  | placeholder (key : Key)
  /-- A reference to another message. -/
  | linked (key : String) (modifier : Option String)
  deriving DecidableEq

/-- The text of an item that is nothing but text. -/
def Item.text? : Item → Option String
  | .text value => some value
  | .literal value => some value
  | .placeholder _ => none
  | .linked _ _ => none

/-- A message is a sequence of items. -/
structure Message where
  items : List Item
  deriving DecidableEq

namespace Message

/-- The message with these items; without any it is one empty text. -/
def ofItems (items : List Item) : Message :=
  if items.isEmpty then ⟨[.text ""]⟩ else ⟨items⟩

/-- The text of a message that is exactly one piece of text. -/
def text? (message : Message) : Option String :=
  match message.items with
  | [item] => item.text?
  | _ => none

end Message

end Phrasebook

import Phrasebook.Template.Split

/-!
# Templates as messages

A template is cut into cases, and each case into tokens and the text between them.  Every text is a
template: what does not form a token stays text, in which `\|` is a way to write a bar.
-/

namespace Phrasebook.Template

/-- A piece of a case: a token, or a run of characters that belong to none. -/
inductive Piece where
  | run (text : List Char)
  | token (item : Item)
  deriving DecidableEq

/-- Put a character in front of the pieces behind it. -/
def Piece.push (c : Char) : List Piece → List Piece
  | .run text :: pieces => .run (c :: text) :: pieces
  | pieces => .run [c] :: pieces

/-- The tokens of a text, found from left to right, and the runs between them. -/
def pieces : List Char → List Piece
  | [] => []
  | c :: s =>
      match h : token? (c :: s) with
      | some (item, rest) =>
          have : rest.length < s.length + 1 := length_of_token? h
          .token item :: pieces rest
      | none => Piece.push c (pieces s)
termination_by s => s.length

/-- The text that a run stands for: a backslash right before a bar is dropped. -/
def unescapeBars : List Char → List Char
  | '\\' :: '|' :: s => '|' :: unescapeBars s
  | c :: s => c :: unescapeBars s
  | [] => []

/-- The item that a piece stands for. -/
def Piece.toItem : Piece → Item
  | .run text => .text (String.ofList (unescapeBars text))
  | .token item => item

/-- One case as a message. -/
def parseCase (source : String) : Message :=
  Message.ofItems ((pieces source.toList).map Piece.toItem)

/-- A template as a message, or as a plural group when it has more than one case. -/
def parse (template : String) : Cases Message :=
  match (split template).map parseCase with
  | [message] => .single message
  | messages => .plural messages

end Phrasebook.Template

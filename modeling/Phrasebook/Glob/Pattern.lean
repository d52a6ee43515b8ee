import Phrasebook.Text.Pieces

/-!
# Glob patterns

A pattern describes names of files: `?` stands for any character, `*` for any run of characters,
`[…]` and `[!…]` for a character that is or is not among some, and every other character for itself.
A pattern for paths is made of patterns for their parts, divided by slashes; a part `**` stands for
any number of directories.
-/

namespace Phrasebook.Glob

/-- Some of the characters that brackets stand for: those between two, both included. -/
structure CharRange where
  first : Char
  last : Char
  deriving DecidableEq, Repr

/-- Whether a range has a character. -/
def CharRange.has (range : CharRange) (c : Char) : Bool :=
  range.first ≤ c && c ≤ range.last

/-- One element of a pattern. -/
inductive Token where
  /-- A character stands for itself. -/
  | char (c : Char)
  /-- Any character. -/
  | anyChar
  /-- Any run of characters. -/
  | anyRun
  /-- Any number of directories. -/
  | anyDepth
  /-- A character in one of the ranges. -/
  | within (ranges : List CharRange)
  /-- A character in none of the ranges. -/
  | outside (ranges : List CharRange)
  deriving DecidableEq, Repr

/-! ## Reading patterns -/

/-- What can be wrong with a pattern. -/
inductive Fault where
  /-- There are more than two stars in a row. -/
  | tooManyStars
  /-- Two stars are not a part of their own. -/
  | depthInsidePart
  /-- A bracket is not closed, or encloses nothing. -/
  | invalidRange
  deriving DecidableEq, Repr

/-- The words for a fault. -/
def Fault.message : Fault → String
  | .tooManyStars => "wildcards are either regular `*` or recursive `**`"
  | .depthInsidePart => "recursive wildcards must form a single path component"
  | .invalidRange => "invalid range pattern"

/-- A fault, and the number of characters before it. -/
structure PatternError where
  fault : Fault
  position : Nat
  deriving DecidableEq, Repr

/-- The report of a faulty pattern. -/
def PatternError.message (error : PatternError) : String :=
  s!"Pattern syntax error near position {error.position}: {error.fault.message}"

/-- The ranges written between brackets: `a-z` is one, and so is every other character. -/
def rangesOf : List Char → List CharRange
  | first :: '-' :: last :: rest => ⟨first, last⟩ :: rangesOf rest
  | c :: rest => ⟨c, c⟩ :: rangesOf rest
  | [] => []

/-- What stands before the next closing bracket, and behind it; there has to be at least one
character before it. -/
def untilBracket? : List Char → Option (List Char × List Char)
  | [] => none
  | c :: s =>
      match s.dropWhile (· != ']') with
      | _ :: rest => some (c :: s.takeWhile (· != ']'), rest)
      | [] => none

/-- The token of a bracket, from behind it, and the rest. -/
def bracket? : List Char → Option (Token × List Char)
  | '!' :: s => (untilBracket? s).map fun found => (.outside (rangesOf found.1), found.2)
  | s => (untilBracket? s).map fun found => (.within (rangesOf found.1), found.2)

theorem length_of_untilBracket? {s inside rest : List Char}
    (h : untilBracket? s = some (inside, rest)) : rest.length < s.length := by
  cases s with
  | nil => simp [untilBracket?] at h
  | cons c s =>
    simp only [untilBracket?] at h
    split at h
    · rename_i close behind found
      simp only [Option.some.injEq, Prod.mk.injEq] at h
      have bound := (List.dropWhile_suffix (l := s) (· != ']')).length_le
      rw [found, h.2, List.length_cons] at bound
      rw [List.length_cons]
      omega
    · simp at h

theorem length_of_bracket? {s rest : List Char} {token : Token}
    (h : bracket? s = some (token, rest)) : rest.length < s.length := by
  unfold bracket? at h
  split at h <;> obtain ⟨⟨inside, behind⟩, found, tail⟩ := Option.map_eq_some_iff.1 h
  · have bound := length_of_untilBracket? found
    simp only [Prod.mk.injEq] at tail
    rw [← tail.2, List.length_cons]
    omega
  · have bound := length_of_untilBracket? found
    simp only [Prod.mk.injEq] at tail
    rw [← tail.2]
    exact bound

/-- The tokens of a pattern.  `position` counts the characters before the text, and `inside` tells
whether a character other than a slash is right before it. -/
def readTokens (position : Nat) (inside : Bool) : List Char → Except PatternError (List Token)
  | [] => .ok []
  | '*' :: '*' :: '*' :: _ => .error ⟨.tooManyStars, position + 2⟩
  | '*' :: '*' :: s =>
      if inside then .error ⟨.depthInsidePart, position - 1⟩
      else match s with
      | [] => .ok [.anyDepth]
      | c :: s =>
          if c = '/' then (readTokens (position + 3) false s).map (.anyDepth :: ·)
          else .error ⟨.depthInsidePart, position + 2⟩
  | '[' :: s =>
      match h : bracket? s with
      | some (token, rest) =>
          have := length_of_bracket? h
          (readTokens (position + 1 + (s.length - rest.length)) true rest).map (token :: ·)
      | none => .error ⟨.invalidRange, position⟩
  | c :: s =>
      let token := if c = '?' then .anyChar else if c = '*' then .anyRun else .char c
      (readTokens (position + 1) (c != '/') s).map (token :: ·)
termination_by s => s.length

/-! ## Patterns for parts -/

/-- A pattern for a part of a path. -/
inductive PartPattern where
  /-- Any number of directories. -/
  | anyDepth
  /-- The names that match some tokens. -/
  | name (tokens : List Token)
  deriving DecidableEq, Repr

/-- The pattern of a part. -/
def PartPattern.read (text : List Char) : Except PatternError PartPattern :=
  (readTokens 0 false text).map fun tokens =>
    if tokens = [.anyDepth] then .anyDepth else .name tokens

/-- The text that a list of tokens spells, when all of them are characters. -/
def spelled? (tokens : List Token) : Option (List Char) :=
  tokens.mapM fun
    | .char c => some c
    | _ => none

/-- Whether a character matches a token that stands for one character. -/
def Token.matchesChar (token : Token) (c : Char) : Bool :=
  match token with
  | .char d => c = d
  | .anyChar => true
  | .within ranges => ranges.any (·.has c)
  | .outside ranges => !ranges.any (·.has c)
  | .anyRun | .anyDepth => false

/-- Whether `rest` accepts what is left of a name after some run of characters. -/
def afterSomeRun (rest : List Char → Bool) : List Char → Bool
  | [] => rest []
  | c :: s => rest (c :: s) || afterSomeRun rest s

/-- Whether a name matches some tokens. -/
def matchesTokens : (tokens : List Token) → (name : List Char) → Bool
  | [], name => name.isEmpty
  | .anyRun :: tokens, name => afterSomeRun (matchesTokens tokens) name
  | .anyDepth :: tokens, name => afterSomeRun (matchesTokens tokens) name
  | _ :: _, [] => false
  | token :: tokens, c :: name => token.matchesChar c && matchesTokens tokens name

/-! ## Patterns for paths -/

/-- A pattern for paths. -/
structure Pattern where
  /-- Whether the paths start at the root. -/
  rooted : Bool
  /-- The patterns for the parts. -/
  parts : List PartPattern
  /-- Whether only directories are meant. -/
  directoriesOnly : Bool
  deriving DecidableEq, Repr

/-- The pieces of a text between slashes, without the empty one that a slash at the end leaves. -/
def piecesOf (text : List Char) : List (List Char) :=
  let pieces := text.splitOn '/'
  if pieces.getLast? = some [] then pieces.dropLast else pieces

/-- The pattern that a text is, when all of it and every part of it can be read.  Without any parts
it is a pattern for the empty name. -/
def Pattern.read (text : List Char) : Except PatternError Pattern := do
  let _ ← readTokens 0 false text
  let rooted := text.head? = some '/'
  let parts ← (piecesOf (if rooted then text.tail else text)).mapM PartPattern.read
  .ok ⟨rooted, if parts.isEmpty then [.name []] else parts, text.getLast? = some '/'⟩

end Phrasebook.Glob

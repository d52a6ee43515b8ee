import Phrasebook.Files.Path

/-!
# Where modules go

The module of a file gets the stem of its name, and stands next to the file or in a directory for all
modules.  Inputs whose modules would be the same file stand in each other's way.
-/

namespace Phrasebook.Bundle

/-- The path of the module for an input. -/
def outputPath (directory : Option Path) (input : Path) : Path :=
  let name := input.stem ++ ".js"
  match directory with
  | some directory => directory.join name
  | none => input.withFileName name

/-- Inputs in groups, in order: those whose modules would be the same file stand together under the
parts of its path. -/
abbrev Groups := List (List Part × List Path)

namespace Groups

/-- Put an input into the group of its output. -/
def add (output : List Part) (input : Path) : Groups → Groups
  | [] => [(output, [input])]
  | group :: groups =>
      if group.1 = output then (output, group.2 ++ [input]) :: groups
      else group :: add output input groups

/-- The inputs with the same output as an input, if there are others: these others. -/
def rivals? (groups : Groups) (directory : Option Path) (input : Path) : Option (List Path) :=
  match groups.lookup (outputPath directory input).parts with
  | some sharing =>
      if sharing.length > 1 then some (sharing.filter fun other => other.parts ≠ input.parts)
      else none
  | none => none

end Groups

/-- Inputs by their outputs. -/
def groupsOf (directory : Option Path) (inputs : List Path) : Groups :=
  inputs.foldl (fun groups input => groups.add (outputPath directory input).parts input) []

end Phrasebook.Bundle

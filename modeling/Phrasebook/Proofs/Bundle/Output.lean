import Phrasebook.Bundle.Output
import Phrasebook.Proofs.Files.Path

/-!
# Outputs

The output of an input with a name is told by the parts of the input: its name with another
ending, in the directory for modules or in the directory of the input.  An output that is
itself taken as an input is its own output, so it is a rival of the input that it came from.

Main results:

- Theorem `parts_outputPath`: the parts of an output.
- Theorem `parts_outputPath_of_output`: an output is its own output.
-/

namespace Phrasebook.Bundle

open Text

/-- The ending of a module can be taken off again. -/
theorem stemOf_append_ending {stem : String} (hstem : stem ≠ "") :
    Path.stemOf (stem ++ ".js") = stem := by
  have hchars : (stem ++ ".js").toList = stem.toList ++ '.' :: ['j', 's'] := by
    simp
  rw [Path.stemOf, hchars, beforeLast?_append (by decide), if_neg (by simpa using hstem)]
  simp

/-- The stem of a name with the ending of a module is a name. -/
theorem isName_stemOf_append {name : String} (hname : IsName name) :
    IsName (Path.stemOf name ++ ".js") := by
  have hchars : (Path.stemOf name ++ ".js").toList =
      (Path.stemOf name).toList ++ ['.', 'j', 's'] := by
    simp
  constructor
  · intro hslash
    rw [hchars, List.mem_append] at hslash
    rcases hslash with hslash | hslash
    · exact hname.noSlash ((Path.stemOf_prefix name).subset hslash)
    · revert hslash
      decide
  · have hlength := congrArg List.length hchars
    rw [List.length_append] at hlength
    refine Part.ofPiece?_eq_name_iff.mpr ⟨rfl, ?_, ?_, ?_⟩
    all_goals
      intro hshort
      rw [hshort] at hlength
      simp at hlength

/-- The parts of the directory that the module of an input is in. -/
def outputAbove (directory : Option Path) (above : List Part) : List Part :=
  directory.elim above Path.parts

/-- The output of an input has its stem for a name. -/
theorem parts_outputPath (directory : Option Path) {input : Path} {above : List Part}
    {name : String} (hinput : input.parts = above ++ [.name name]) :
    (outputPath directory input).parts =
      outputAbove directory above ++ [.name (Path.stemOf name ++ ".js")] := by
  have hnew := isName_stemOf_append (Path.isName_of_parts hinput)
  unfold outputPath outputAbove
  rw [Path.stem_of_parts hinput]
  cases directory with
  | some directory => exact Path.parts_join directory hnew
  | none => exact Path.parts_withFileName hinput hnew

/-- An output is its own output. -/
theorem parts_outputPath_of_output (directory : Option Path) {input output : Path}
    {above : List Part} {name : String} (hinput : input.parts = above ++ [.name name])
    (houtput : output.parts = (outputPath directory input).parts) :
    (outputPath directory output).parts = (outputPath directory input).parts := by
  have hname := Path.isName_of_parts hinput
  rw [parts_outputPath directory hinput] at houtput ⊢
  rw [parts_outputPath directory houtput,
    stemOf_append_ending (Path.stemOf_ne_empty hname.ne_empty)]
  cases directory <;> rfl

end Phrasebook.Bundle

import Phrasebook.Proofs.Bundle.Accounts
import Phrasebook.Proofs.Bundle.Output

/-!
# Two spellings of a file

A point at the front of a path leads nowhere, but it is a part of the path.  So `./x.js`
and `x.js` name the same file and have different parts.  Inputs are found as they are
asked for, a module next to its input is spelled like the input, and inputs are in each
other's way only if their outputs have the same parts.

Main results:

- Theorem `Path.SameFile.parts_eq_iff`: paths of the same file have the same parts unless
  just one of them starts with a point.
- Theorem `parts_outputPath_eq_iff`: the same for outputs, by how the inputs are spelled.
- Theorem `turnsAway_ofOutcomes`: which inputs with the same output file a report names
  for each other.
- Theorem `run_spellings`: which inputs with the same output file a run leaves alone.
- Theorem `run_storesTwice`: a run that stores two modules in the same file.
-/

namespace Phrasebook

open Text

/-! ## Points at the front -/

namespace Path

/-- Whether a path starts with the point that stands for the directory one is in. -/
def startsHere (path : Path) : Bool :=
  path.parts.head? = some .here

/-- The parts of a path without points. -/
def steps (path : Path) : List Part :=
  path.parts.filter (· ≠ .here)

/-- Two paths name the same file: they have the same parts when points do not count. -/
def SameFile (a b : Path) : Prop :=
  a.steps = b.steps

instance (a b : Path) : Decidable (a.SameFile b) :=
  inferInstanceAs (Decidable (a.steps = b.steps))

/-- A point between slashes is no part. -/
theorem here_notMem_filterMap (pieces : List (List Char)) :
    .here ∉ pieces.filterMap Part.ofPiece? := by
  intro hmem
  obtain ⟨piece, -, hpart⟩ := List.mem_filterMap.mp hmem
  unfold Part.ofPiece? at hpart
  split at hpart <;> simp at hpart

/-- A point is at the front of a path or nowhere. -/
theorem parts_eq_steps (path : Path) :
    path.parts = (if path.startsHere then [.here] else []) ++ path.steps := by
  have hpoints := here_notMem_filterMap (path.text.toList.splitOn '/')
  have hparts := path.parts_eq
  generalize (path.text.toList.splitOn '/').filterMap Part.ofPiece? = others at hpoints hparts
  have hkept : others.filter (· ≠ .here) = others := by
    refine List.filter_eq_self.mpr fun part hpart => ?_
    simpa using ne_of_mem_of_not_mem hpart hpoints
  have hhead : others.head? ≠ some .here := fun hfirst => hpoints (List.mem_of_head? hfirst)
  rw [startsHere, steps, hparts, leadOf]
  split
  · simpa using hkept.symm
  split
  · simpa using hkept.symm
  · simpa [hhead] using hkept.symm

/-- Paths of the same file have the same parts unless just one of them starts with a point. -/
theorem SameFile.parts_eq_iff {a b : Path} (hsame : a.SameFile b) :
    a.parts = b.parts ↔ a.startsHere = b.startsHere := by
  constructor
  · intro hparts
    rw [startsHere, startsHere, hparts]
  · intro hpoint
    rw [parts_eq_steps, parts_eq_steps b, hpoint, show a.steps = b.steps from hsame]

/-- A part that is added at the end does not change what a path starts with. -/
theorem startsHere_of_concat {path longer : Path} {name : String}
    (hlonger : longer.parts = path.parts ++ [.name name]) :
    longer.startsHere = path.startsHere := by
  rw [startsHere, startsHere, hlonger]
  cases path.parts <;> simp

end Path

namespace Bundle

/-! ## Spellings of outputs -/

/-- The name of an output is a name, whether or not its input has one. -/
theorem isName_stem_append (input : Path) : IsName (input.stem ++ ".js") := by
  unfold Path.stem
  cases hname : input.fileName? with
  | none => exact ⟨by decide, by decide⟩
  | some name =>
    obtain ⟨above, hparts⟩ := Path.exists_above_of_fileName? hname
    exact isName_stemOf_append (Path.isName_of_parts hparts)

/-- A module next to its input is spelled with a point at the front if its input is. -/
theorem startsHere_outputPath_none (input : Path) :
    (outputPath none input).startsHere = input.startsHere := by
  cases hname : input.fileName? with
  | none =>
    have houtput : outputPath none input = input.join (input.stem ++ ".js") := by
      rw [outputPath, Path.withFileName, hname]
    rw [houtput]
    exact Path.startsHere_of_concat (Path.parts_join input (isName_stem_append input))
  | some name =>
    obtain ⟨above, hparts⟩ := Path.exists_above_of_fileName? hname
    rw [Path.startsHere, Path.startsHere, parts_outputPath none hparts, hparts]
    cases above <;> simp [outputAbove]

/-- All modules in one directory are spelled like the directory. -/
theorem startsHere_outputPath_some (directory input : Path) :
    (outputPath (some directory) input).startsHere = directory.startsHere :=
  Path.startsHere_of_concat (Path.parts_join directory (isName_stem_append input))

/-- Two inputs are spelled differently, and so are their outputs: the outputs stand next to
the inputs, and just one of the inputs starts with a point. -/
def SpelledApart (directory : Option Path) (a b : Path) : Prop :=
  directory = none ∧ a.startsHere ≠ b.startsHere

/-- Outputs that are the same file have the same parts unless they are spelled apart. -/
theorem parts_outputPath_eq_iff {directory : Option Path} {a b : Path}
    (hsame : (outputPath directory a).SameFile (outputPath directory b)) :
    (outputPath directory a).parts = (outputPath directory b).parts ↔
      ¬SpelledApart directory a b := by
  rw [hsame.parts_eq_iff]
  cases directory with
  | none => simp [SpelledApart, startsHere_outputPath_none]
  | some directory => simp [SpelledApart, startsHere_outputPath_some]

/-! ## Inputs that a report names for each other -/

/-- A report says of an input that its output is also that of another one. -/
def Report.Blames (report : Report) (directory : Option Path) (input other : Path) : Prop :=
  ∃ rivals, .collision input (outputPath directory input) rivals ∈ report.failures ∧
    other ∈ rivals

/-- A report turns away inputs for the sake of others.  The inputs that are left to compile
are told by the report, and so is what is done about outputs that are the same file. -/
structure TurnsAway (directory : Option Path) (inputs todo : List Path) (report : Report) :
    Prop where
  /-- Only inputs that are left to compile are stored. -/
  stored : (report.emitted.map Emitted.input).Sublist todo
  /-- The inputs that are left are those that are not named for others. -/
  left : ∀ a, a ∈ todo ↔ a ∈ inputs ∧ ∀ b, ¬report.Blames directory a b
  /-- Inputs with the same output file are named for each other, and neither is left. -/
  named : ∀ a ∈ inputs, ∀ b ∈ inputs, a.parts ≠ b.parts →
    (outputPath directory a).SameFile (outputPath directory b) →
      ¬SpelledApart directory a b →
        report.Blames directory a b ∧ report.Blames directory b a ∧ a ∉ todo ∧ b ∉ todo
  /-- If they are spelled apart, they are not named for each other. -/
  missed : ∀ a ∈ inputs, ∀ b ∈ inputs,
    (outputPath directory a).SameFile (outputPath directory b) → SpelledApart directory a b →
      ¬report.Blames directory a b ∧ ¬report.Blames directory b a

section Reports

variable {directory : Option Path} {inputs : List Path} {outcomes : List Outcome} {a b : Path}

/-- A report names the other inputs with the same output, and no others. -/
theorem blames_ofOutcomes (hinputs : (inputs.map Path.parts).Nodup) :
    (Report.ofOutcomes directory inputs outcomes).Blames directory a b ↔
      a ∈ inputs ∧ b ∈ inputs ∧ b.parts ≠ a.parts ∧
        (outputPath directory b).parts = (outputPath directory a).parts := by
  rw [← mem_rivalsOf]
  unfold Report.Blames
  simp only [failures_ofOutcomes, collisions_eq hinputs, List.mem_append, List.mem_map,
    List.mem_filter, decide_eq_true_eq, Failure.collision.injEq, reduceCtorEq, and_false,
    exists_false, or_false]
  constructor
  · rintro ⟨_, ⟨input, ⟨hinput, -⟩, rfl, -, rfl⟩, hother⟩
    exact ⟨hinput, hother⟩
  · rintro ⟨hinput, hother⟩
    exact ⟨_, ⟨a, ⟨hinput, List.ne_nil_of_mem hother⟩, rfl, rfl, rfl⟩, hother⟩

/-- The inputs that are compiled are those that are not named for others. -/
theorem mem_unrivalled_iff (hinputs : (inputs.map Path.parts).Nodup) :
    a ∈ unrivalled directory inputs ↔
      a ∈ inputs ∧ ∀ b, ¬(Report.ofOutcomes directory inputs outcomes).Blames directory a b := by
  rw [unrivalled_eq hinputs, List.mem_filter, decide_eq_true_eq]
  refine and_congr_right fun hinput => ?_
  rw [List.eq_nil_iff_forall_not_mem]
  simp [blames_ofOutcomes hinputs, mem_rivalsOf, hinput]

/-- A report made of outcomes turns away the inputs that it names for others. -/
theorem turnsAway_ofOutcomes (hinputs : (inputs.map Path.parts).Nodup)
    (htodo : outcomes.map Prod.fst = unrivalled directory inputs) :
    TurnsAway directory inputs (unrivalled directory inputs)
      (Report.ofOutcomes directory inputs outcomes) := by
  have hleft : ∀ a, a ∈ unrivalled directory inputs ↔ a ∈ inputs ∧
      ∀ b, ¬(Report.ofOutcomes directory inputs outcomes).Blames directory a b :=
    fun a => mem_unrivalled_iff hinputs
  have hblames : ∀ {a b}, (Report.ofOutcomes directory inputs outcomes).Blames directory a b ↔
      a ∈ inputs ∧ b ∈ inputs ∧ b.parts ≠ a.parts ∧
        (outputPath directory b).parts = (outputPath directory a).parts :=
    blames_ofOutcomes hinputs
  refine { stored := ?_, left := hleft, named := ?_, missed := ?_ }
  · rw [emitted_ofOutcomes, ← htodo]
    exact Outcome.emitted_sublist outcomes
  · intro a ha b hb hne hsame hspelled
    have hequal := (parts_outputPath_eq_iff hsame).mpr hspelled
    have hab := hblames.mpr ⟨ha, hb, hne.symm, hequal.symm⟩
    have hba := hblames.mpr ⟨hb, ha, hne, hequal⟩
    exact ⟨hab, hba, fun hmem => ((hleft a).mp hmem).2 b hab,
      fun hmem => ((hleft b).mp hmem).2 a hba⟩
  · intro a ha b hb hsame hspelled
    have hdiffer := mt (parts_outputPath_eq_iff hsame).mp (not_not_intro hspelled)
    rw [hblames, hblames]
    exact ⟨fun hab => hdiffer hab.2.2.2.symm, fun hba => hdiffer hba.2.2.2⟩

end Reports

/-! ## Runs -/

section Runs

variable {σ : Type} [Storage (StateM σ)]

/-- A run compiles the inputs that its report does not name for others, one after the
other, and does nothing else to the storage.  Of two inputs whose outputs are the same
file it names each for the other, so that neither is compiled, unless they are spelled
apart: then it does not see that their outputs are the same file. -/
theorem run_spellings {settings : Settings} {report : Report} {start final : σ}
    (hrun : (run settings : StateM σ _).run start = (.ok report, final)) :
    ∃ inputs todo outcomes found,
      (discover settings.patterns : StateM σ _).run start = (.ok inputs, found) ∧
      (todo.mapM (compileLabelled settings.directory) : StateM σ _).run found =
        (outcomes, final) ∧
      TurnsAway settings.directory inputs todo report := by
  obtain ⟨inputs, found, -, hdiscover, hcompile⟩ := run_eq_ok_iff.mp hrun
  have hinputs := (ascending_discover hdiscover).nodup_parts
  have htodo :=
    (outcomes_of_mapM settings.directory (unrivalled settings.directory inputs) found).1
  rw [compileAll_eq] at hcompile
  cases hended : ((unrivalled settings.directory inputs).mapM
    (compileLabelled settings.directory) : StateM σ _).run found with
  | mk outcomes ended =>
    rw [hended] at htodo
    have hmapped : (Report.ofOutcomes settings.directory inputs outcomes, ended) =
        (report, final) := by
      rw [← hcompile]
      exact congrArg (Prod.map (Report.ofOutcomes settings.directory inputs) id) hended.symm
    obtain ⟨rfl, rfl⟩ := Prod.mk.inj hmapped
    exact ⟨inputs, _, outcomes, found, hdiscover, hended, turnsAway_ofOutcomes hinputs htodo⟩

end Runs

/-! ## A run over two spellings -/

/-- Two messages in files that have the same name but for the ending. -/
def spelledFiles : FileTree :=
  ⟨[(["x.json"], .file "\"Hi\"".toUTF8), (["x.txt"], .file "\"Hi\"".toUTF8)]⟩

/-- Both of these files, one of them with a point in front. -/
def spelledSettings : Settings where
  patterns := ["./x.txt", "x.json"]

/-- These files in order. -/
def spelledInputs : List Path :=
  [⟨"./x.txt"⟩, ⟨"x.json"⟩]

/-- The report on these files. -/
def spelledReport : Report where
  emitted := [⟨⟨"./x.txt"⟩, ⟨"./x.js"⟩⟩, ⟨⟨"x.json"⟩, ⟨"x.js"⟩⟩]

/-- Both files are found. -/
theorem exists_discover_spelled :
    ∃ found, (discover spelledSettings.patterns : StateM FileTree _).run spelledFiles =
        (.ok spelledInputs, found) ∧
      ((compileAll spelledSettings.directory spelledInputs : StateM FileTree _).run found).1 =
        spelledReport := by
  have hmatching :
      ((matchingAll spelledSettings.patterns : StateM FileTree _).run spelledFiles).1 =
        .ok spelledInputs := by
    decide +kernel
  have hascending : Path.Ascending spelledInputs := by
    unfold Path.Ascending
    decide +kernel
  exact ⟨_, discover_of_matchingAll hmatching hascending, by decide +kernel⟩

/-- The outputs of two inputs are the same file, and the run stores both modules without
naming either input for the other. -/
theorem run_storesTwice :
    ∃ inputs found final,
      (discover spelledSettings.patterns : StateM FileTree _).run spelledFiles =
        (.ok inputs, found) ∧
      ⟨"./x.txt"⟩ ∈ inputs ∧ ⟨"x.json"⟩ ∈ inputs ∧
      (outputPath spelledSettings.directory ⟨"./x.txt"⟩).SameFile
        (outputPath spelledSettings.directory ⟨"x.json"⟩) ∧
      (run spelledSettings : StateM FileTree _).run spelledFiles =
        (.ok spelledReport, final) ∧
      spelledReport.failures = [] ∧
      spelledReport.emitted = [⟨⟨"./x.txt"⟩, ⟨"./x.js"⟩⟩, ⟨⟨"x.json"⟩, ⟨"x.js"⟩⟩] := by
  obtain ⟨found, hdiscover, hcompile⟩ := exists_discover_spelled
  obtain ⟨final, hrun⟩ := exists_run hdiscover (by decide) hcompile
  exact ⟨spelledInputs, found, final, hdiscover, by decide, by decide, by decide +kernel,
    hrun, rfl, rfl⟩

/-- The run over these files leaves both of them to compile. -/
theorem run_spellings_spelled :
    ∃ final, (run spelledSettings : StateM FileTree _).run spelledFiles =
        (.ok spelledReport, final) ∧
      ∃ inputs todo outcomes found,
        (discover spelledSettings.patterns : StateM FileTree _).run spelledFiles =
          (.ok inputs, found) ∧
        (todo.mapM (compileLabelled spelledSettings.directory) : StateM FileTree _).run found =
          (outcomes, final) ∧
        TurnsAway spelledSettings.directory inputs todo spelledReport := by
  obtain ⟨found, hdiscover, hcompile⟩ := exists_discover_spelled
  obtain ⟨final, hrun⟩ := exists_run hdiscover (by decide) hcompile
  exact ⟨final, hrun, run_spellings hrun⟩

end Bundle

end Phrasebook

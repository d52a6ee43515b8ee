import Phrasebook.Bundle.Module
import Phrasebook.Proofs.Bundle.Output
import Phrasebook.Proofs.Files.Disk
import Phrasebook.Proofs.Files.Interference

/-!
# The work on one file

The work on an input reads what the input holds, has the directory of the output made, and
stores the output with its last request.  All that it sees of a disk is what the input
holds, and whether files are in the way of the output.

Main results:

- Definition `Agrees`: two disks that the work on an input cannot tell apart.
- Theorem `Agrees.insert`: which new files it does not notice.
- Theorem `does_compileFile`: what the work on an input comes to and changes.
-/

namespace Phrasebook.Bundle

variable {guard : Guard}

/-! ## What the work relies on -/

/-- A disk is like another one for the work on an input: the input holds the same, and the
same is in the way of the output. -/
structure Agrees (start : Disk guard) (input output : Place) (disk : Disk guard) : Prop where
  content : disk.files.lookup input = start.files.lookup input
  bars : disk.files.Bars output.above ↔ start.files.Bars output.above
  above : ∀ place : Place, place.parts = output.above →
    (place ∈ disk.files ↔ place ∈ start.files)
  below : disk.files.Below output.parts ↔ start.files.Below output.parts

namespace Agrees

variable {start disk : Disk guard} {input output : Place}

/-- A disk is like itself. -/
theorem refl (start : Disk guard) (input output : Place) : Agrees start input output start :=
  ⟨rfl, Iff.rfl, fun _ _ => Iff.rfl, Iff.rfl⟩

/-- The input is read alike. -/
theorem read (hdisk : Agrees start input output disk) {path : Path}
    (hpath : path.place? = some input) : disk.read path = start.read path := by
  simp only [Disk.read, hpath, hdisk.content]

/-- A file is found alike where the directory of the output should be. -/
theorem isFile (hdisk : Agrees start input output disk) {path : Path}
    (hpath : path.parts = output.above) :
    disk.kind? path = some .file ↔ start.kind? path = some .file := by
  simp only [Disk.kind?_eq_file_iff, Path.place?_eq_some_iff]
  refine exists_congr fun place => and_congr_left fun hplace => ?_
  exact hdisk.above place (hplace ▸ hpath)

/-- The directory of the output is made alike. -/
theorem makeDirectory (hdisk : Agrees start input output disk) {path : Path}
    (hpath : path.parts = output.above) : disk.makeDirectory path = start.makeDirectory path := by
  simp only [Disk.makeDirectory, hpath, hdisk.bars, hdisk.isFile hpath]

/-- Where a file is in the way of the directory of the output, the same is found there. -/
theorem kind? (hdisk : Agrees start input output disk) {path : Path}
    (hpath : path.parts = output.above) (hbars : start.files.Bars output.above) :
    disk.kind? path = start.kind? path := by
  have hfile := hdisk.isFile hpath
  have hdiskBars : disk.files.Bars output.above := hdisk.bars.mpr hbars
  rw [← hpath] at hbars hdiskBars
  rcases Disk.kind?_of_bars hbars with hstart | hstart
  · rw [hstart, hfile.mpr hstart]
  · rcases Disk.kind?_of_bars hdiskBars with hdisk | hdisk
    · exact hdisk.trans (hfile.mp hdisk).symm
    · rw [hstart, hdisk]

/-- The output is refused alike. -/
theorem refusal? (hdisk : Agrees start input output disk) :
    disk.refusal? output = start.refusal? output := by
  simp only [Disk.refusal?, hdisk.bars, hdisk.below]

/-- A new file goes unnoticed if it is not the input and not above the output, and if it is
below the output only where there is already something. -/
theorem insert (hdisk : Agrees start input output disk) {other : Place}
    (hother : other ≠ input) (habove : ¬ other.parts <+: output.above)
    (hbelow : output.parts <+: other.above → start.files.Below output.parts)
    (content : ByteArray) : Agrees start input output (disk.insert other content) where
  content := by
    rw [← hdisk.content]
    exact Finmap.lookup_insert_of_ne _ (Ne.symm hother)
  bars := by
    rw [Disk.insert, FileMap.bars_insert, or_iff_right habove, hdisk.bars]
  above place hplace := by
    have hne : place ≠ other := by
      rintro rfl
      exact habove (hplace ▸ List.prefix_refl _)
    rw [Disk.insert, Finmap.mem_insert, or_iff_right hne, hdisk.above place hplace]
  below := by
    rw [Disk.insert, FileMap.below_insert, hdisk.below]
    exact or_iff_right_of_imp hbelow

end Agrees

/-! ## Making the module -/

/-- The input holds the text of messages, and this is what their module is made of. -/
def Compiles (files : FileMap) (input : Place) (made : Reported String) : Prop :=
  ∃ bytes text value, files.lookup input = some bytes ∧ String.fromUTF8? bytes = some text ∧
    Json.ofText text.toList = .ok value ∧ value.compileModule = .ok made

/-- The module of a text is made of the messages in it. -/
theorem exists_value_of_moduleOf {path : Path} {text : String} {made : Reported String}
    (hmade : moduleOf path text = .ok made) :
    ∃ value, Json.ofText text.toList = .ok value ∧ value.compileModule = .ok made := by
  unfold moduleOf at hmade
  cases hvalue : Json.ofText text.toList with
  | error stop => simp [hvalue, Except.mapError, bind, Except.bind] at hmade
  | ok value =>
    cases hmodule : value.compileModule with
    | error error => simp [hvalue, hmodule, Except.mapError, bind, Except.bind] at hmade
    | ok found =>
      simp only [hvalue, Except.mapError, bind, Except.bind, hmodule] at hmade
      cases hmade
      exact ⟨value, rfl, hmodule⟩

/-- The module of what is read from a file. -/
def moduleOfRead (path : Path) : Except StorageError ByteArray → Except FileFault (Reported String)
  | .error refusal => .error (.unreadable path refusal)
  | .ok bytes =>
      match String.fromUTF8? bytes with
      | some text => moduleOf path text
      | none => .error (.unreadable path .notText)

/-- Making the module of a file is reading it once. -/
theorem readModule_eq (path : Path) :
    (readModule path : Program _) = moduleOfRead path <$> Storage.read path := by
  unfold readModule Storage.readText
  refine congrArg (Program.ask (.read path)) (funext fun bytes? => ?_)
  cases bytes? with
  | error refusal => rfl
  | ok bytes =>
    cases htext : String.fromUTF8? bytes with
    | none => simp [Program.bind, moduleOfRead, htext]
    | some text => simp [Program.bind, moduleOfRead, htext]

section Work

variable (start : Disk guard) (input output : Place)

/-- Making the module of an input changes nothing. -/
theorem does_readModule {path : Path} (hpath : path.place? = some input) :
    Program.Does (Agrees start input output) (readModule path) none
      (moduleOfRead path (start.read path)) := by
  have hread : Program.Does (Agrees start input output) (Storage.read path) none
      (start.read path) := by
    refine .look (fun disk hdisk => ?_) (.done _)
    rw [← hdisk.read hpath]
    rfl
  rw [readModule_eq]
  exact hread.map _

/-- The module of an input is made of what the input holds. -/
theorem compiles_of_read {path : Path} (hpath : path.place? = some input)
    {made : Reported String} (hmade : moduleOfRead path (start.read path) = .ok made) :
    Compiles start.files input made := by
  cases hread : start.read path with
  | error refusal => simp [hread, moduleOfRead] at hmade
  | ok bytes =>
    cases htext : String.fromUTF8? bytes with
    | none => simp [hread, moduleOfRead, htext] at hmade
    | some text =>
      simp only [hread, moduleOfRead, htext] at hmade
      obtain ⟨value, hvalue, hmodule⟩ := exists_value_of_moduleOf hmade
      exact ⟨bytes, text, value, Disk.lookup_of_read hpath hread, htext, hvalue, hmodule⟩

/-- When a directory could not be made as a file is in the way, none is found either. -/
theorem does_settle {path : Path} (hpath : path.parts = output.above)
    (hbars : start.files.Bars output.above) (refusal : StorageError) :
    Program.Does (Agrees start input output) (Storage.settle path (.error refusal)) none
      (.error refusal) := by
  have hkind : Program.Does (Agrees start input output) (Storage.kind? path) none
      (start.kind? path) := by
    refine .look (fun disk hdisk => ?_) (.done _)
    rw [← hdisk.kind? hpath hbars]
    rfl
  have hdirectory : decide (start.kind? path = some .directory) = false := by
    rw [← hpath] at hbars
    rcases Disk.kind?_of_bars hbars with hstart | hstart <;> simp [hstart]
  have hisDirectory := hkind.map fun kind => decide (kind = some .directory)
  rw [hdirectory] at hisDirectory
  exact .bind hisDirectory (.done _)

/-- Making the directory of an output changes nothing, and comes to what it comes to at
first, as no file gets in the way or out of it. -/
theorem does_makeFirst {first : Path} (others : List Path)
    (hfirst : first.parts = output.above) :
    Program.Does (Agrees start input output) (Storage.makeFirst (first :: others)) none
      (start.makeDirectory first) := by
  have hmake : Program.Does (Agrees start input output) (Storage.makeDirectory first) none
      (start.makeDirectory first) := by
    refine .look (fun disk hdisk => ?_) (.done _)
    rw [← hdisk.makeDirectory hfirst]
    rfl
  unfold Storage.makeFirst
  by_cases hbars : start.files.Bars first.parts
  · have hsome : first.parts ≠ [] := by
      rintro hnone
      obtain ⟨place, -, hprefix⟩ := hbars
      rw [hnone] at hprefix
      simp [Place.parts] at hprefix
    have hrefused : ∃ refusal, start.makeDirectory first = .error refusal ∧
        refusal ≠ .notFound := by
      rw [Disk.makeDirectory, if_pos hbars]
      split <;> simp
    obtain ⟨refusal, hrefusal, hfound⟩ := hrefused
    rw [hrefusal] at hmake ⊢
    rw [hfirst] at hbars
    rw [if_neg hsome]
    refine .bind hmake ?_
    have hsettle := does_settle start input output hfirst hbars refusal
    cases refusal <;> first | exact hsettle | exact absurd rfl hfound
  · have hmade : start.makeDirectory first = .ok () := by
      rw [Disk.makeDirectory, if_neg hbars]
    rw [hmade] at hmake ⊢
    split
    · exact .done _
    · exact .bind hmake (.done _)

/-- Making the directory of an output changes nothing. -/
theorem does_prepare {path : Path} (hpath : path.place? = some output) :
    ∃ made? : Except FileFault Unit,
      Program.Does (Agrees start input output) (prepare path) none made? := by
  rw [Path.place?_eq_some_iff, Place.parts] at hpath
  obtain ⟨parent, hparent, hparts⟩ := Path.exists_parent hpath
  obtain ⟨first, others, hancestors, hfirst⟩ := parent.exists_ancestors
  have hmake : Program.Does (Agrees start input output) (Storage.makeFirst (first :: others))
      none (start.makeDirectory first) :=
    does_makeFirst start input output others (hfirst.trans hparts)
  rw [← hancestors] at hmake
  unfold prepare
  rw [hparent]
  exact ⟨_, hmake.map _⟩

/-- A refused output changes nothing. -/
theorem does_write_of_refusal {path : Path} (hpath : path.place? = some output)
    {refusal : StorageError} (hrefusal : start.refusal? output = some refusal)
    (content : ByteArray) :
    Program.Does (Agrees start input output) (Storage.write path content) none
      (.error refusal) := by
  refine .look (fun disk hdisk => ?_) (.done _)
  have hwrite : disk.write path content = .error refusal := by
    simp only [Disk.write, hpath, hdisk.refusal?, hrefusal]
  change Disk.attempt (·.write path content) disk = _
  simp only [Disk.attempt, hwrite]

/-- An output that is not refused is stored at its place. -/
theorem does_write {path : Path} (hpath : path.place? = some output)
    (hrefusal : start.refusal? output = none) (content : ByteArray) :
    Program.Does (Agrees start input output) (Storage.write path content)
      (some fun disk => disk.insert output content) (.ok ()) := by
  refine .change (fun disk hdisk => ?_) rfl
  have hwrite : disk.write path content = .ok (disk.insert output content) := by
    simp only [Disk.write, hpath, hdisk.refusal?, hrefusal]
  change Disk.attempt (·.write path content) disk = _
  simp only [Disk.attempt, hwrite]

/-- An output is stored at its place, or there is a fault and nothing is changed. -/
theorem does_store {path : Path} (hpath : path.place? = some output) (source : String) :
    (∃ fault, Program.Does (Agrees start input output) (store path source) none
        (.error fault)) ∨
      start.refusal? output = none ∧
        Program.Does (Agrees start input output) (store path source)
          (some fun disk => disk.insert output source.toUTF8) (.ok ()) := by
  obtain ⟨made?, hprepare⟩ := does_prepare start input output hpath
  unfold store
  cases made? with
  | error fault => exact .inl ⟨fault, .bind hprepare (.done _)⟩
  | ok made =>
    cases hrefusal : start.refusal? output with
    | some refusal =>
      have hwrite := does_write_of_refusal start input output hpath hrefusal source.toUTF8
      exact .inl ⟨_, .bind hprepare (hwrite.map _)⟩
    | none =>
      have hwrite := does_write start input output hpath hrefusal source.toUTF8
      exact .inr ⟨rfl, .bind hprepare (hwrite.map _)⟩

/-! ## The whole work -/

/-- What the work on an input comes to: the module of what the input holds is stored, or
there is a fault and nothing is changed. -/
inductive Works (start : Disk guard) (input output : Place) (path : Path) :
    Option (Disk guard → Disk guard) → Except FileFault (Reported Path) → Prop where
  | stored (made : Reported String) (hmade : Compiles start.files input made)
      (hrefusal : start.refusal? output = none) :
      Works start input output path (some fun disk => disk.insert output made.result.toUTF8)
        (.ok (made.map fun _ => path))
  | failed (fault : FileFault) : Works start input output path none (.error fault)

/-- The work on an input stores the module of what it holds, or changes nothing. -/
theorem does_compileFile {directory : Option Path} {path : Path}
    (hinput : path.place? = some input)
    (houtput : (outputPath directory path).place? = some output) :
    ∃ change? result,
      Program.Does (Agrees start input output) (compileFile directory path) change? result ∧
        Works start input output (outputPath directory path) change? result := by
  have hread := does_readModule start input output hinput
  unfold compileFile
  cases hmade : moduleOfRead path (start.read path) with
  | error fault =>
    rw [hmade] at hread
    exact ⟨none, .error fault, .bind hread (.done _), .failed fault⟩
  | ok made =>
    rw [hmade] at hread
    rcases does_store start input output houtput made.result with
      ⟨fault, hstore⟩ | ⟨hrefusal, hstore⟩
    · exact ⟨none, .error fault, .bind hread (hstore.map _), .failed fault⟩
    · exact ⟨_, _, .bind hread (hstore.map _),
        .stored made (compiles_of_read start input hinput hmade) hrefusal⟩

end Work

end Phrasebook.Bundle

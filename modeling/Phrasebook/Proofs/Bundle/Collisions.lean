import Mathlib.Data.List.Induction
import Mathlib.Data.List.Nodup
import Phrasebook.Bundle.Run

/-!
# Inputs in each other's way

Inputs are put into groups by their outputs, one input after the other.  What a group
holds in the end can be said without the groups: it is all inputs with that output.  So
the rivals of an input are the other inputs with the same output.

Main results:

- Theorem `Groups.sharing_add`: an input goes to the group of its output, and to no other.
- Theorem `sharing_groupsOf`: a group holds the inputs with its output, in order.
- Theorem `rivals?_groupsOf`: an input among distinct ones has rivals if other inputs have
  its output, and these are its rivals.
- Theorem `pairwise_unrivalled`: no two inputs without rivals have the same output.
-/

namespace Phrasebook.Bundle

/-- The other inputs with the output of an input, in order. -/
def rivalsOf (directory : Option Path) (inputs : List Path) (input : Path) : List Path :=
  inputs.filter fun other =>
    (outputPath directory other).parts = (outputPath directory input).parts ∧
      other.parts ≠ input.parts

/-- The rivals of an input are the inputs with its output and other parts. -/
theorem mem_rivalsOf {directory : Option Path} {inputs : List Path} {input other : Path} :
    other ∈ rivalsOf directory inputs input ↔
      other ∈ inputs ∧ other.parts ≠ input.parts ∧
        (outputPath directory other).parts = (outputPath directory input).parts := by
  simp [rivalsOf, and_comm]

/-! ## Groups -/

namespace Groups

/-- The inputs in the group of an output; none if there is no such group. -/
def sharing (groups : Groups) (output : List Part) : List Path :=
  (groups.lookup output).getD []

/-- The first group with an output is the one that counts. -/
theorem sharing_cons (group : List Part × List Path) (groups : Groups) (output : List Part) :
    sharing (group :: groups) output =
      if output = group.1 then group.2 else groups.sharing output := by
  obtain ⟨own, members⟩ := group
  by_cases hsame : output = own
  · simp [sharing, hsame]
  · simp [sharing, List.lookup_cons, hsame, beq_eq_false_iff_ne.mpr hsame]

/-- An input goes to the group of its output, and to no other. -/
theorem sharing_add (groups : Groups) (output other : List Part) (input : Path) :
    (groups.add output input).sharing other =
      groups.sharing other ++ if other = output then [input] else [] := by
  induction groups with
  | nil =>
    rw [add, sharing_cons]
    rfl
  | cons group groups ih =>
    rw [add, sharing_cons]
    by_cases hgroup : group.1 = output
    · rw [if_pos hgroup, sharing_cons, hgroup]
      by_cases hother : other = output <;> simp [hother]
    · rw [if_neg hgroup, sharing_cons, ih]
      by_cases hother : other = group.1
      · simp [hother, hgroup]
      · simp [hother]

/-- The rivals of an input are told by the group of its output. -/
theorem rivals?_eq (groups : Groups) (directory : Option Path) (input : Path) :
    groups.rivals? directory input =
      let sharing := groups.sharing (outputPath directory input).parts
      if sharing.length > 1 then some (sharing.filter fun other => other.parts ≠ input.parts)
      else none := by
  unfold rivals? sharing
  cases groups.lookup (outputPath directory input).parts with
  | none => simp
  | some found => rfl

end Groups

/-- A group holds the inputs with its output, in order. -/
theorem sharing_groupsOf (directory : Option Path) (inputs : List Path) (output : List Part) :
    (groupsOf directory inputs).sharing output =
      inputs.filter fun input => (outputPath directory input).parts = output := by
  induction inputs using List.reverseRecOn with
  | nil => rfl
  | append_singleton inputs input ih =>
    have hstep : groupsOf directory (inputs ++ [input]) =
        (groupsOf directory inputs).add (outputPath directory input).parts input := by
      simp [groupsOf]
    rw [hstep, Groups.sharing_add, ih, List.filter_append]
    by_cases hsame : output = (outputPath directory input).parts
    · simp [hsame]
    · simp [hsame, Ne.symm hsame]

/-! ## Rivals -/

/-- The rivals of an input are what is in the group of its output and has other parts. -/
theorem rivalsOf_eq (directory : Option Path) (inputs : List Path) (input : Path) :
    rivalsOf directory inputs input =
      ((groupsOf directory inputs).sharing (outputPath directory input).parts).filter
        fun other => other.parts ≠ input.parts := by
  rw [sharing_groupsOf, List.filter_filter, rivalsOf]
  congr 1
  funext other
  simp [and_comm]

/-- The inputs that share the output of an input are its rivals and one more: the input
itself. -/
theorem length_sharing_groupsOf {directory : Option Path} {inputs : List Path}
    (hinputs : (inputs.map Path.parts).Nodup) {input : Path} (hinput : input ∈ inputs) :
    ((groupsOf directory inputs).sharing (outputPath directory input).parts).length =
      (rivalsOf directory inputs input).length + 1 := by
  rw [rivalsOf_eq, sharing_groupsOf]
  set sharing := inputs.filter fun other =>
    (outputPath directory other).parts = (outputPath directory input).parts with hsharing
  have hmem : input ∈ sharing := by simp [hsharing, hinput]
  have hnodup : (sharing.map Path.parts).Nodup :=
    hinputs.sublist (List.filter_sublist.map _)
  have hself : sharing.countP (fun other => other.parts = input.parts) = 1 := by
    have hcount := List.count_eq_one_of_mem hnodup (List.mem_map_of_mem hmem)
    rw [List.count, List.countP_map] at hcount
    rw [← hcount]
    exact List.countP_congr (by simp)
  rw [List.length_eq_countP_add_countP (fun other => other.parts = input.parts), hself,
    ← List.countP_eq_length_filter, Nat.add_comm]
  simp

/-- An input among distinct ones has rivals if other inputs have its output, and these are
its rivals. -/
theorem rivals?_groupsOf {directory : Option Path} {inputs : List Path}
    (hinputs : (inputs.map Path.parts).Nodup) {input : Path} (hinput : input ∈ inputs) :
    (groupsOf directory inputs).rivals? directory input =
      if rivalsOf directory inputs input = [] then none
      else some (rivalsOf directory inputs input) := by
  rw [Groups.rivals?_eq]
  simp only [length_sharing_groupsOf hinputs hinput, ← rivalsOf_eq]
  by_cases hnone : rivalsOf directory inputs input = []
  · simp [hnone]
  · have hpos := List.length_pos_iff.mpr hnone
    rw [if_neg hnone, if_pos]
    omega

/-- The inputs that are compiled are those without rivals. -/
theorem unrivalled_eq {directory : Option Path} {inputs : List Path}
    (hinputs : (inputs.map Path.parts).Nodup) :
    unrivalled directory inputs =
      inputs.filter fun input => rivalsOf directory inputs input = [] := by
  refine List.filter_congr fun input hinput => ?_
  rw [rivals?_groupsOf hinputs hinput]
  by_cases hnone : rivalsOf directory inputs input = [] <;> simp [hnone]

/-- There is a collision for each input with rivals, in order. -/
theorem collisions_eq {directory : Option Path} {inputs : List Path}
    (hinputs : (inputs.map Path.parts).Nodup) :
    collisions directory inputs =
      (inputs.filter fun input => rivalsOf directory inputs input ≠ []).map fun input =>
        .collision input (outputPath directory input) (rivalsOf directory inputs input) := by
  rw [← List.filterMap_eq_map, List.filterMap_filter]
  refine List.filterMap_congr fun input hinput => ?_
  rw [rivals?_groupsOf hinputs hinput]
  by_cases hnone : rivalsOf directory inputs input = [] <;> simp [hnone]

/-- An input without rivals has an output of its own. -/
theorem outputPath_ne_of_unrivalled {directory : Option Path} {inputs : List Path}
    (hinputs : (inputs.map Path.parts).Nodup) {a b : Path} (ha : a ∈ unrivalled directory inputs)
    (hb : b ∈ inputs) (hne : a.parts ≠ b.parts) :
    (outputPath directory a).parts ≠ (outputPath directory b).parts := by
  intro hsame
  rw [unrivalled_eq hinputs] at ha
  obtain ⟨-, ha⟩ := List.mem_filter.mp ha
  have hrival : b ∈ rivalsOf directory inputs a :=
    mem_rivalsOf.mpr ⟨hb, Ne.symm hne, hsame.symm⟩
  rw [of_decide_eq_true ha] at hrival
  cases hrival

/-- No two inputs without rivals have the same output. -/
theorem pairwise_unrivalled {directory : Option Path} {inputs : List Path}
    (hinputs : (inputs.map Path.parts).Nodup) :
    (unrivalled directory inputs).Pairwise
      fun a b => (outputPath directory a).parts ≠ (outputPath directory b).parts := by
  have hdistinct : (unrivalled directory inputs).Pairwise fun a b => a.parts ≠ b.parts :=
    (List.pairwise_map.mp hinputs).sublist List.filter_sublist
  exact hdistinct.imp_of_mem fun ha hb hne =>
    outputPath_ne_of_unrivalled hinputs ha (List.mem_of_mem_filter hb) hne

end Phrasebook.Bundle

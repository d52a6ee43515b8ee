import Phrasebook.Proofs.Tree.Nodes

/-!
# Canonical trees

A tree of phrases has more shapes than are ever made: plural groups without cases, and
lists that hold nothing but single messages and so should have been plural groups.
Neither documents nor sources give such trees, at whatever depth.  The two decide in
different ways what a plural group is, documents by the messages that their templates
are parsed as and sources by the parts that they are read as, but both leave the same
arrays to be lists.

Main results:

- Definition `Tree.Canonical`: the shape that every node of a tree should have.
- Theorem `MadeNode.canonical`: what a part of a document is made into has that shape,
  and by `MadeNode.keyed` a key in each of its interpolations.
- Theorem `ReadNode.canonical`: what a part of a source is read as has that shape.
- Theorem `everywhere_canonical`: so all nodes of the trees of documents and sources do.
-/

namespace Phrasebook

open Script

/-! ## Shapes of nodes -/

/-- The phrases at a node itself. -/
def Tree.phrases : Tree Phrase → List Phrase
  | .cases translation => translation.toList
  | _ => []

/-- The shape of a node, whatever trees are in it. -/
structure Tree.Canonical (node : Tree Phrase) : Prop where
  /-- An interpolation has one segment more than it has keys. -/
  alternates : ∀ i, .interpolated i ∈ node.phrases → i.segments.length = i.keys.length + 1
  /-- A plural group has a case. -/
  hasCase : node ≠ .cases (.plural [])
  /-- A value that is not a message holds neither text nor other values. -/
  plain : ∀ value, node = .data value →
    (Json.scalar value).kind = .null ∨ (Json.scalar value).kind = .bool ∨
      (Json.scalar value).kind = .number
  /-- A list is empty or holds something else than single messages. -/
  mixed : ∀ items, node = .list items →
    items = [] ∨ ∃ item ∈ items, ∀ phrase, item ≠ .cases (.single phrase)

/-- Every interpolation at a node has a key. -/
def Tree.Keyed (node : Tree Phrase) : Prop :=
  ∀ i, .interpolated i ∈ node.phrases → i.keys ≠ []

/-- The types of interpolations and of data leave two things to be asked of a node. -/
theorem Tree.canonical_of {node : Tree Phrase} (hcase : node ≠ .cases (.plural []))
    (hmixed : ∀ items, node = .list items → items = [] ∨ ∃ item ∈ items, phrase? item = none) :
    node.Canonical where
  alternates i _ := i.length_segments
  hasCase := hcase
  plain value _ := by
    cases value with
    | null => exact Or.inl rfl
    | bool value => exact Or.inr (Or.inl rfl)
    | number value => exact Or.inr (Or.inr rfl)
  mixed items hitems := by
    refine (hmixed items hitems).imp_right ?_
    rintro ⟨item, hitem, hnone⟩
    refine ⟨item, hitem, ?_⟩
    rintro phrase rfl
    cases hnone

/-! ## Documents -/

/-- Cases with a case are made into cases with a case. -/
theorem emitCases_ne_plural_nil {cases : Cases Message} (hsome : cases ≠ .plural []) :
    (treeBackend.emitCases cases).result ≠ .cases (.plural []) := by
  cases cases with
  | single message => rintro ⟨⟩
  | plural messages =>
    rw [Ne, Cases.plural.injEq] at hsome
    simpa [emitCases_treeBackend, Cases.plan, Reported.all] using hsome

/-- What a part of a document is made into is canonical. -/
theorem MadeNode.canonical {node : Tree Phrase} (hnode : MadeNode node) : node.Canonical := by
  cases hnode with
  | @cases cases hsome =>
    refine Tree.canonical_of (emitCases_ne_plural_nil hsome) ?_
    intro items hitems
    rw [emitCases_treeBackend] at hitems
    cases hitems
  | @list items hgroup =>
    refine Tree.canonical_of (by rintro ⟨⟩) ?_
    rintro trees ⟨⟩
    rcases mixed_of_group?_eq_none hgroup with rfl | ⟨item, hitem, hmessage⟩
    · exact Or.inl rfl
    · exact Or.inr ⟨_, List.mem_map_of_mem hitem, phrase?_emitValue hmessage⟩
  | map entries => exact Tree.canonical_of (by rintro ⟨⟩) (by rintro items ⟨⟩)
  | data value => exact Tree.canonical_of (by rintro ⟨⟩) (by rintro items ⟨⟩)

/-- A message without placeholders is made into a fixed text. -/
theorem keys_ne_nil_of_emitMessage {message : Message} {i : Interpolation}
    (hmade : (treeBackend.emitMessage message).result = .interpolated i) : i.keys ≠ [] := by
  have houtline := message.wellFormed_outline
  rw [Backend.emitMessage, Reported.result_map] at hmade
  cases hresult : message.outline.result with
  | fixed text =>
    rw [hresult] at hmade
    cases hmade
  | segmented segments keys =>
    rw [hresult] at hmade houtline
    cases hmade
    rw [Interpolation.keys_ofSegments]
    exact houtline.1

/-- Cases are made into a phrase each. -/
theorem phrases_emitCases (cases : Cases Message) :
    (treeBackend.emitCases cases).result.phrases =
      cases.toList.map fun message => (treeBackend.emitMessage message).result := by
  cases cases with
  | single message => rfl
  | plural messages =>
    simp [emitCases_treeBackend, Cases.plan, Message.plan, Reported.all, Tree.phrases,
      Cases.toList]

/-- What a part of a document is made into has a key in each of its interpolations. -/
theorem MadeNode.keyed {node : Tree Phrase} (hnode : MadeNode node) : node.Keyed := by
  intro i hi
  cases hnode with
  | @cases cases hsome =>
    rw [phrases_emitCases] at hi
    obtain ⟨message, -, hmade⟩ := List.mem_map.mp hi
    exact keys_ne_nil_of_emitMessage hmade
  | list hgroup => cases hi
  | map entries => cases hi
  | data value => cases hi

/-! ## Sources -/

namespace Script

/-- An array without items is read as a list. -/
theorem treeOfItems_ne_empty_plural (items : List (Tree Phrase)) :
    treeOfItems items ≠ .cases (.plural []) := by
  unfold treeOfItems
  split
  · rename_i first others phrases hphrases
    rintro ⟨⟩
    rw [List.mapM_cons] at hphrases
    cases hfirst : phrase? first with
    | none => simp [hfirst] at hphrases
    | some phrase => cases hothers : others.mapM phrase? <;> simp [hfirst, hothers] at hphrases
  · rintro ⟨⟩

/-- An array that is read as a list is empty or holds something that is no phrase. -/
theorem mixed_of_treeOfItems {items trees : List (Tree Phrase)}
    (hlist : treeOfItems items = .list trees) :
    trees = [] ∨ ∃ item ∈ trees, phrase? item = none := by
  unfold treeOfItems at hlist
  split at hlist
  · cases hlist
  · rename_i hother
    cases hlist
    cases trees with
    | nil => exact Or.inl rfl
    | cons first others =>
      refine Or.inr (mapM_eq_none_iff.mp ?_)
      rw [Option.eq_none_iff_forall_ne_some]
      exact fun phrases hphrases => hother first others phrases rfl hphrases

/-- What a part of a source is read as is canonical. -/
theorem ReadNode.canonical {node : Tree Phrase} (hnode : ReadNode node) : node.Canonical := by
  cases hnode with
  | phrase phrase => exact Tree.canonical_of (by rintro ⟨⟩) (by rintro items ⟨⟩)
  | items items =>
    exact Tree.canonical_of (treeOfItems_ne_empty_plural items) fun _ => mixed_of_treeOfItems
  | map entries => exact Tree.canonical_of (by rintro ⟨⟩) (by rintro items ⟨⟩)
  | data value => exact Tree.canonical_of (by rintro ⟨⟩) (by rintro items ⟨⟩)

end Script

/-! ## Trees -/

/-- A tree that is made has nothing but the nodes that its document is made into. -/
theorem everywhere_plan {input : Json} {planned : Reported (Tree Phrase)}
    (hplan : input.plan = .ok planned) : planned.result.Everywhere MadeNode := by
  unfold Json.plan Backend.emitInput at hplan
  split at hplan
  · cases hplan
    exact everywhere_emitValue input
  · cases hplan
    exact everywhere_emitValue input
  · cases hplan

/-- All nodes of a tree that is made of a document or read from a source are canonical,
and where a document has an interpolation, it has a key. -/
theorem everywhere_canonical :
    (∀ input planned, Json.plan input = .ok planned →
      planned.result.Everywhere fun node => node.Canonical ∧ node.Keyed) ∧
    ∀ source tree, Tree.ofSource source = .ok tree → tree.Everywhere Tree.Canonical := by
  refine ⟨?_, ?_⟩
  · intro input planned hplan
    exact (everywhere_plan hplan).mono fun node hnode => ⟨hnode.canonical, hnode.keyed⟩
  · intro source tree hread
    exact (everywhere_ofSource hread).mono fun node hnode => hnode.canonical

/-- A document with a list of plural groups, a written-out plural group, an empty list
and a number in nested objects. -/
def groupedInput : Json :=
  .object [("lists", .array [.array [.string "one", .string "{n} many"], .array []]),
    ("nested", .object [("plural", .string "a {0} | b"), ("flag", .bool true)])]

/-- The tree of that document. -/
def groupedTree : Tree Phrase :=
  .map [("lists", .list
      [.cases (.plural [.fixed "one", .interpolated ⟨"", [(.named "n", " many")]⟩]), .list []]),
    ("nested", .map
      [("plural", .cases (.plural [.interpolated ⟨"a ", [(.index 0, "")]⟩, .fixed "b"])),
        ("flag", .data (.bool true))])]

/-- A source with a function without keys, which no document gives, in a list that its
scalar keeps from being a plural group. -/
def keylessSource : String :=
  "[\"a\", i => i`b`, [null], {},]"

theorem everywhere_canonical_grouped :
    groupedInput.plan = .ok ⟨groupedTree, []⟩ ∧
      (groupedTree.Everywhere fun node => node.Canonical ∧ node.Keyed) ∧
      Tree.ofSource keylessSource = .ok (.list [.cases (.single (.fixed "a")),
        .cases (.single (.interpolated ⟨"b", []⟩)), .list [.data .null], .map []]) ∧
      Tree.Everywhere Tree.Canonical (.list [.cases (.single (.fixed "a")),
        .cases (.single (.interpolated ⟨"b", []⟩)), .list [.data .null], .map []]) := by
  have hplan : groupedInput.plan = .ok ⟨groupedTree, []⟩ := by decide +kernel
  have hread : Tree.ofSource keylessSource = .ok (.list [.cases (.single (.fixed "a")),
      .cases (.single (.interpolated ⟨"b", []⟩)), .list [.data .null], .map []]) := by
    decide +kernel
  exact ⟨hplan, everywhere_canonical.1 _ _ hplan, hread, everywhere_canonical.2 _ _ hread⟩

end Phrasebook

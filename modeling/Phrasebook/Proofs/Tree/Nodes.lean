import Phrasebook.Proofs.Compile.Backends
import Phrasebook.Proofs.Entries
import Phrasebook.Proofs.Script.Sequences

/-!
# Nodes of trees

What holds at every depth of a tree is said of its nodes.  Trees come from two places,
from documents and from sources that are read, and both make a tree node by node.  So
a property of nodes holds everywhere in such a tree once it holds of each kind of node
that can be made.

Main results:

- Definition `Everywhere`: a property of all nodes of a tree.
- Theorem `everywhere_emitValue`: the tree of a document consists of the nodes that its
  parts are made into (`MadeNode`).
- Theorem `everywhere_ofSource`: a tree that is read consists of the nodes that the
  parts of its source are read as (`ReadNode`).
-/

namespace Phrasebook

namespace Tree

variable {μ : Type}

/-! ## Nodes -/

mutual

/-- A tree and all trees in it, at any depth. -/
def nodes : Tree μ → List (Tree μ)
  | .cases leaf => [.cases leaf]
  | .map entries => .map entries :: entriesNodes entries
  | .list items => .list items :: itemsNodes items
  | .data value => [.data value]

/-- The nodes of the items of a list. -/
def itemsNodes : List (Tree μ) → List (Tree μ)
  | [] => []
  | item :: items => nodes item ++ itemsNodes items

/-- The nodes of named subtrees. -/
def entriesNodes : List (String × Tree μ) → List (Tree μ)
  | [] => []
  | (_, tree) :: entries => nodes tree ++ entriesNodes entries

end

theorem mem_itemsNodes {items : List (Tree μ)} {node : Tree μ} :
    node ∈ itemsNodes items ↔ ∃ item ∈ items, node ∈ item.nodes := by
  induction items with
  | nil => simp [itemsNodes]
  | cons item items ih => simp [itemsNodes, ih]

theorem mem_entriesNodes {entries : List (String × Tree μ)} {node : Tree μ} :
    node ∈ entriesNodes entries ↔ ∃ entry ∈ entries, node ∈ entry.2.nodes := by
  induction entries with
  | nil => simp [entriesNodes]
  | cons entry entries ih => simp [entriesNodes, ih]

/-! ## Properties of all nodes -/

/-- A property holds of a tree and of all trees in it. -/
def Everywhere (P : Tree μ → Prop) (tree : Tree μ) : Prop :=
  ∀ node ∈ tree.nodes, P node

variable {P : Tree μ → Prop}

@[simp] theorem everywhere_cases {cases : Cases μ} :
    (Tree.cases cases).Everywhere P ↔ P (.cases cases) := by
  simp [Everywhere, nodes]

@[simp] theorem everywhere_data {value : Scalar} :
    (Tree.data value : Tree μ).Everywhere P ↔ P (.data value) := by
  simp [Everywhere, nodes]

theorem everywhere_map {entries : List (String × Tree μ)} :
    (Tree.map entries).Everywhere P ↔
      P (.map entries) ∧ ∀ entry ∈ entries, entry.2.Everywhere P := by
  simp only [Everywhere, nodes, List.mem_cons, forall_eq_or_imp, mem_entriesNodes]
  exact and_congr_right' ⟨fun h entry hentry node hnode => h node ⟨entry, hentry, hnode⟩,
    fun h node ⟨entry, hentry, hnode⟩ => h entry hentry node hnode⟩

theorem everywhere_list {items : List (Tree μ)} :
    (Tree.list items).Everywhere P ↔
      P (.list items) ∧ ∀ item ∈ items, item.Everywhere P := by
  simp only [Everywhere, nodes, List.mem_cons, forall_eq_or_imp, mem_itemsNodes]
  exact and_congr_right' ⟨fun h item hitem node hnode => h node ⟨item, hitem, hnode⟩,
    fun h node ⟨item, hitem, hnode⟩ => h item hitem node hnode⟩

end Tree

/-- A property of all nodes gives every property that follows from it. -/
theorem Tree.Everywhere.mono {μ : Type} {P Q : Tree μ → Prop} {tree : Tree μ}
    (htree : tree.Everywhere P) (hPQ : ∀ node, P node → Q node) : tree.Everywhere Q :=
  fun node hnode => hPQ node (htree node hnode)

open Phrasebook.Tree

/-! ## Trees of documents -/

/-- What a part of a document is made into in memory, with whatever trees in it. -/
inductive MadeNode : Tree Phrase → Prop where
  | cases {cases : Cases Message} (hsome : cases ≠ .plural []) :
      MadeNode (treeBackend.emitCases cases).result
  | list {items : List Json} (hgroup : Json.group? items = none) :
      MadeNode (.list (items.map fun item => (treeBackend.emitValue item).result))
  | map (entries : List (String × Tree Phrase)) : MadeNode (.map entries)
  | data (value : Scalar) : MadeNode (.data value)

/-- Cases are made into one node. -/
theorem everywhere_emitCases {cases : Cases Message} (hsome : cases ≠ .plural []) :
    (treeBackend.emitCases cases).result.Everywhere MadeNode := by
  have hnode := MadeNode.cases hsome
  rw [emitCases_treeBackend] at hnode ⊢
  exact everywhere_cases.mpr hnode

mutual

/-- The tree of a document consists of the nodes that its parts are made into. -/
theorem everywhere_emitValue :
    ∀ value : Json, (treeBackend.emitValue value).result.Everywhere MadeNode
  | .scalar value => everywhere_data.mpr (.data value)
  | .string template => everywhere_emitCases (parse_ne_plural_nil template)
  | .array items => by
      have hitems := everywhere_emitItems items
      rw [Backend.emitValue]
      cases hgroup : Json.group? items with
      | some messages =>
        refine everywhere_emitCases ?_
        rintro ⟨⟩
        exact group?_ne_some_nil items hgroup
      | none =>
        have hresult : ((Reported.all (treeBackend.emitItems items)).map
            treeBackend.list).result =
              .list (items.map fun item => (treeBackend.emitValue item).result) := by
          simp [Reported.all, Backend.emitItems_eq_map, Function.comp_def, treeBackend]
        simp only [hresult, everywhere_list]
        refine ⟨.list hgroup, fun node hnode => ?_⟩
        obtain ⟨item, hitem, rfl⟩ := List.mem_map.mp hnode
        exact hitems item hitem
  | .object entries => by
      have hentries := everywhere_emitEntries entries
      have hresult : (treeBackend.emitValue (.object entries)).result =
          .map (Entries.ofList (entries.map fun entry =>
            (entry.1, (treeBackend.emitValue entry.2).result))) := by
        rw [Backend.emitValue]
        simp [Reported.allEntries, Backend.emitEntries_eq_map, Function.comp_def,
          treeBackend]
      rw [hresult, everywhere_map]
      refine ⟨.map _, fun written hwritten => ?_⟩
      obtain ⟨entry, hentry, rfl⟩ := List.mem_map.mp (Entries.mem_of_mem_ofList hwritten)
      exact hentries entry hentry

/-- The same for the items of an array. -/
theorem everywhere_emitItems : ∀ items : List Json, ∀ item ∈ items,
    (treeBackend.emitValue item).result.Everywhere MadeNode
  | [] => by simp
  | first :: others => by
      have hfirst := everywhere_emitValue first
      have hothers := everywhere_emitItems others
      intro item hitem
      rcases List.mem_cons.mp hitem with rfl | hitem
      · exact hfirst
      · exact hothers item hitem

/-- The same for the entries of an object. -/
theorem everywhere_emitEntries : ∀ entries : List (String × Json), ∀ entry ∈ entries,
    (treeBackend.emitValue entry.2).result.Everywhere MadeNode
  | [] => by simp
  | (name, value) :: others => by
      have hvalue := everywhere_emitValue value
      have hothers := everywhere_emitEntries others
      intro entry hentry
      rcases List.mem_cons.mp hentry with rfl | hentry
      · exact hvalue
      · exact hothers entry hentry

end

/-! ## Trees of sources -/

namespace Script

open Text

variable {α : Type}

/-- Whatever a reader finds has a property. -/
def Finds (Q : α → Prop) (item : Reader Fault α) : Prop :=
  ∀ {s rest : List Char} {value : α}, item s = .ok (value, rest) → Q value

/-- All items of a sequence have the property that each item has. -/
theorem finds_readItems {Q : α → Prop} {item : Reader Fault α} (hitem : Finds Q item)
    {close : Char} (hclose : close ≠ ',') (budget : Nat) :
    Finds (fun items => ∀ value ∈ items, Q value) (readItems close item budget) := by
  induction budget with
  | zero =>
    intro s rest items hread
    simp [readItems, stopAtEnd] at hread
  | succ budget ih =>
    intro s rest items hread
    rcases (readItems_succ_eq_ok_iff hclose).mp hread with
      ⟨-, rfl⟩ | ⟨first, behind, -, hfirst, ⟨next, others, -, hothers, rfl⟩ | ⟨-, rfl⟩⟩
    · simp
    · exact List.forall_mem_cons.mpr ⟨hitem hfirst, ih hothers⟩
    · simpa using hitem hfirst

/-- The value of an entry has the property that every value has. -/
theorem finds_readEntry {Q : α → Prop} {item : Reader Fault α} (hitem : Finds Q item) :
    Finds (fun entry => Q entry.2) (readEntry item) := by
  intro s rest entry hread
  obtain ⟨⟨name, afterName⟩, -, hread⟩ := ok_of_bind hread
  obtain ⟨afterColon, -, hread⟩ := ok_of_bind hread
  obtain ⟨⟨value, afterValue⟩, hvalue, hread⟩ := ok_of_bind hread
  simp only [Except.ok.injEq, Prod.mk.injEq] at hread
  obtain ⟨rfl, -⟩ := hread
  exact hitem hvalue

/-- What a part of a source is read as, with whatever trees in it. -/
inductive ReadNode : Tree Phrase → Prop where
  | phrase (phrase : Phrase) : ReadNode (.cases (.single phrase))
  | items (items : List (Tree Phrase)) : ReadNode (treeOfItems items)
  | map (entries : List (String × Tree Phrase)) : ReadNode (.map entries)
  | data (value : Scalar) : ReadNode (.data value)

/-- A word starts a scalar or a phrase. -/
theorem finds_readWordValue : Finds (Everywhere ReadNode) readWordValue := by
  intro s rest tree hread
  unfold readWordValue at hread
  simp only at hread
  split at hread
  · cases hread
    exact everywhere_data.mpr (.data _)
  · split at hread
    · cases hread
      exact everywhere_data.mpr (.data _)
    · split at hread
      · cases hread
        exact everywhere_data.mpr (.data _)
      · obtain ⟨⟨interpolation, behind⟩, -, hmade⟩ := ok_of_map hread
        cases hmade
        exact everywhere_cases.mpr (.phrase _)

/-- An array is a plural group, or a list of the trees in it. -/
theorem everywhere_treeOfItems {items : List (Tree Phrase)}
    (hall : ∀ item ∈ items, item.Everywhere ReadNode) :
    (treeOfItems items).Everywhere ReadNode := by
  have hnode := ReadNode.items items
  unfold treeOfItems at hnode ⊢
  split at hnode
  · exact everywhere_cases.mpr hnode
  · exact everywhere_list.mpr ⟨hnode, hall⟩

/-- A value is made of the trees of its items. -/
theorem finds_readValueWith {item : Reader Fault (Tree Phrase)}
    (hitem : Finds (Everywhere ReadNode) item) :
    Finds (Everywhere ReadNode) (readValueWith item) := by
  intro s rest tree hread
  unfold readValueWith at hread
  split at hread
  · simp [stopAtEnd] at hread
  · split at hread
    · obtain ⟨⟨text, behind⟩, -, hmade⟩ := ok_of_map hread
      cases hmade
      exact everywhere_cases.mpr (.phrase _)
    · split at hread
      · obtain ⟨⟨items, behind⟩, hsequence, hmade⟩ := ok_of_map hread
        cases hmade
        exact everywhere_treeOfItems (finds_readItems hitem (by decide) _ hsequence)
      · split at hread
        · obtain ⟨⟨entries, behind⟩, hsequence, hmade⟩ := ok_of_map hread
          cases hmade
          have hvalues := finds_readItems (finds_readEntry hitem) (by decide) _ hsequence
          exact everywhere_map.mpr ⟨.map _, fun entry hentry =>
            hvalues entry (Entries.mem_of_mem_ofList hentry)⟩
        · split at hread
          · obtain ⟨⟨number, behind⟩, -, hmade⟩ := ok_of_map hread
            cases hmade
            exact everywhere_data.mpr (.data _)
          · split at hread
            · exact finds_readWordValue hread
            · simp [stopBefore] at hread

theorem finds_readValue (depth : Nat) :
    Finds (Everywhere ReadNode) (readValue depth) := by
  induction depth with
  | zero =>
    intro s rest tree hread
    simp [readValue, stopAtEnd] at hread
  | succ depth ih => exact finds_readValueWith ih

/-- A tree that is read consists of the nodes that the parts of its source are read
as. -/
theorem everywhere_ofSource {source : String} {tree : Tree Phrase}
    (hread : Tree.ofSource source = .ok tree) : tree.Everywhere ReadNode := by
  unfold Tree.ofSource at hread
  split at hread
  · rename_i read hsource
    cases hread
    obtain ⟨behindHeader, -, hsource⟩ := ok_of_bind hsource
    obtain ⟨⟨value, behind⟩, hvalue, hsource⟩ := ok_of_bind hsource
    obtain ⟨-, -, hsource⟩ := ok_of_bind hsource
    cases hsource
    exact finds_readValue _ hvalue
  · cases hread

end Script

end Phrasebook

import Phrasebook.Cases
import Phrasebook.Json.Basic

/-!
# Trees of messages

Messages are collected in trees of named entries and lists.  A leaf is a translation, or a value
that is not a message and is kept as it is.  Trees are made over any type of messages.
-/

namespace Phrasebook

/-- A tree whose leaves hold messages. -/
inductive Tree (μ : Type) where
  /-- One message, or a plural group. -/
  | cases (cases : Cases μ)
  /-- Named subtrees, in order. -/
  | map (entries : List (String × Tree μ))
  /-- Subtrees in order. -/
  | list (items : List (Tree μ))
  /-- A value that is not a message. -/
  | data (value : Scalar)

namespace Tree

variable {μ : Type}

/-! ## Equality -/

mutual

/-- Equality of trees is decided from the leaves up. -/
def decEq [DecidableEq μ] : (a b : Tree μ) → Decidable (a = b)
  | .cases a, .cases b => decidable_of_iff (a = b) (by simp)
  | .map a, .map b => @decidable_of_iff _ (a = b) (by simp) (decEqEntries a b)
  | .list a, .list b => @decidable_of_iff _ (a = b) (by simp) (decEqItems a b)
  | .data a, .data b => decidable_of_iff (a = b) (by simp)
  | .cases _, .map _ | .cases _, .list _ | .cases _, .data _ => isFalse (by simp)
  | .map _, .cases _ | .map _, .list _ | .map _, .data _ => isFalse (by simp)
  | .list _, .cases _ | .list _, .map _ | .list _, .data _ => isFalse (by simp)
  | .data _, .cases _ | .data _, .map _ | .data _, .list _ => isFalse (by simp)

/-- Equality of lists of subtrees. -/
def decEqItems [DecidableEq μ] : (a b : List (Tree μ)) → Decidable (a = b)
  | [], [] => isTrue rfl
  | [], _ :: _ => isFalse (by simp)
  | _ :: _, [] => isFalse (by simp)
  | a :: as, b :: bs =>
      match decEq a b, decEqItems as bs with
      | isTrue h, isTrue hs => isTrue (by rw [h, hs])
      | isFalse h, _ => isFalse (by simp [h])
      | _, isFalse hs => isFalse (by simp [hs])

/-- Equality of lists of named subtrees. -/
def decEqEntries [DecidableEq μ] : (a b : List (String × Tree μ)) → Decidable (a = b)
  | [], [] => isTrue rfl
  | [], _ :: _ => isFalse (by simp)
  | _ :: _, [] => isFalse (by simp)
  | (k, a) :: as, (l, b) :: bs =>
      match decEq a b, decEqEntries as bs with
      | isTrue h, isTrue hs =>
          if hk : k = l then isTrue (by rw [h, hs, hk]) else isFalse (by simp [hk])
      | isFalse h, _ => isFalse (by simp [h])
      | _, isFalse hs => isFalse (by simp [hs])

end

instance [DecidableEq μ] : DecidableEq (Tree μ) := decEq

/-! ## Access -/

/-- The translation at a leaf. -/
def cases? : Tree μ → Option (Cases μ)
  | .cases c => some c
  | _ => none

/-- The named subtrees. -/
def entries? : Tree μ → Option (Entries (Tree μ))
  | .map entries => some entries
  | _ => none

/-- Follow a path of names from the root. -/
def follow? (tree : Tree μ) (path : List String) : Option (Tree μ) :=
  path.foldlM (fun node name => node.entries?.bind (Entries.get? · name)) tree

end Tree

end Phrasebook

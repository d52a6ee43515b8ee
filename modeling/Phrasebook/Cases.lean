/-!
# Messages and plural groups

A translation is one message, or a group of messages for different counts.  Which message of a
group goes with a count depends on the number of cases alone:

| cases | case |
|---|---|
| 1 | the only one |
| 2 | the first for a count of one, otherwise the second |
| 3 | the first for zero and below, the second for one, the third for two and above |
| other | the first |
-/

namespace Phrasebook

/-- One message, or a plural group with a message for every case. -/
inductive Cases (μ : Type) where
  | single (message : μ)
  | plural (cases : List μ)
  deriving DecidableEq

namespace Cases

variable {μ ν : Type}

/-- The index of the case for `count` in a group of `size` cases. -/
def indexFor (size : Nat) (count : Int) : Nat :=
  match size with
  | 2 => if count = 1 then 0 else 1
  | 3 => (min (max count 0) 2).toNat
  | _ => 0

/-- The index always names a case of a group that has one. -/
theorem indexFor_lt {size : Nat} (count : Int) (h : 0 < size) : indexFor size count < size := by
  unfold indexFor
  split
  · split <;> omega
  · omega
  · exact h

/-- All messages, in order. -/
def toList : Cases μ → List μ
  | .single message => [message]
  | .plural cases => cases

/-- Whether there is a plural group. -/
def isPlural : Cases μ → Bool
  | .single _ => false
  | .plural _ => true

/-- The message, or the first case of a group. -/
def first? : Cases μ → Option μ
  | .single message => some message
  | .plural cases => cases.head?

/-- The message for a count; one message is there for every count. -/
def select? : Cases μ → Int → Option μ
  | .single message, _ => some message
  | .plural cases, count => cases[indexFor cases.length count]?

/-- The same cases with another message in the place of each. -/
def map (f : μ → ν) : Cases μ → Cases ν
  | .single message => .single (f message)
  | .plural cases => .plural (cases.map f)

@[simp] theorem toList_map (f : μ → ν) (c : Cases μ) : (c.map f).toList = c.toList.map f := by
  cases c <;> rfl

end Cases

end Phrasebook

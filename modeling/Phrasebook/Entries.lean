/-!
# Entries in order

A list of named values in which the place of a name is decided when it first appears: writing to a
name that is already there keeps its place and replaces its value.  Objects, catalogs and their
locales are kept this way, because the order of their names is part of what is printed.

Main results:

- `get?_put` says that a write is seen under its own name and under no other.
- `getThenPut?_eq` says that a write gives back what was there before it.
- `keys_put` says that only a new name changes the names, and that it comes last.
-/

namespace Phrasebook

/-- Named values in the order in which the names first appeared. -/
abbrev Entries (α : Type) := List (String × α)

namespace Entries

variable {α : Type}

/-- The value under a name: that of its first entry. -/
def get? : Entries α → String → Option α
  | [], _ => none
  | entry :: rest, name => if entry.1 = name then some entry.2 else get? rest name

/-- Write a value under a name.  A name that is already there keeps its place. -/
def put : Entries α → String → α → Entries α
  | [], name, value => [(name, value)]
  | entry :: rest, name, value =>
      if entry.1 = name then (name, value) :: rest else entry :: put rest name value

/-- Write a value under a name, and give back the one that it replaces, if there is one. -/
def getThenPut? : Entries α → String → α → Option α × Entries α
  | [], name, value => (none, [(name, value)])
  | entry :: rest, name, value =>
      if entry.1 = name then (some entry.2, (name, value) :: rest)
      else
        let written := getThenPut? rest name value
        (written.1, entry :: written.2)

/-- Write all values of `added`, in order. -/
def putAll (entries added : Entries α) : Entries α :=
  added.foldl (fun written entry => put written entry.1 entry.2) entries

/-- The entries written by a list of writes. -/
def ofList (writes : List (String × α)) : Entries α :=
  putAll [] writes

/-- The names, in order. -/
def keys (entries : Entries α) : List String :=
  entries.map Prod.fst

@[simp] theorem get?_nil (name : String) : get? ([] : Entries α) name = none := rfl

/-- Looking up passes over entries of other names. -/
theorem get?_cons (entry : String × α) (rest : Entries α) (name : String) :
    get? (entry :: rest) name = if entry.1 = name then some entry.2 else get? rest name := rfl

/-- A write is seen under its own name and under no other. -/
theorem get?_put (entries : Entries α) (name other : String) (value : α) :
    get? (put entries name value) other = if name = other then some value else get? entries other := by
  induction entries with
  | nil => simp [put, get?_cons]
  | cons entry rest ih =>
    by_cases h : entry.1 = name
    · subst h
      simp only [put, if_true, get?_cons]
      split <;> rfl
    · simp only [put, h, if_false, get?_cons, ih]
      split
      · rename_i heq
        subst heq
        simp [Ne.symm h]
      · rfl

/-- What a write replaces is what was there before it. -/
theorem getThenPut?_eq (entries : Entries α) (name : String) (value : α) :
    getThenPut? entries name value = (get? entries name, put entries name value) := by
  induction entries with
  | nil => rfl
  | cons entry rest ih =>
    by_cases h : entry.1 = name
    · simp [getThenPut?, put, get?_cons, h]
    · simp [getThenPut?, put, get?_cons, h, ih]

/-- Only a new name changes the names, and it comes last. -/
theorem keys_put (entries : Entries α) (name : String) (value : α) :
    keys (put entries name value) =
      if name ∈ keys entries then keys entries else keys entries ++ [name] := by
  induction entries with
  | nil => simp [put, keys]
  | cons entry rest ih =>
    by_cases h : entry.1 = name
    · simp [put, keys, h]
    · simp only [keys] at ih
      simp only [put, h, if_false, keys, List.map_cons, List.mem_cons, Ne.symm h, false_or, ih]
      split <;> simp_all

end Entries

end Phrasebook

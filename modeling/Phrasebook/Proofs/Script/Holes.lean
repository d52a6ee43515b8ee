import Phrasebook.Proofs.Script.Longer

/-!
# Holes cut out of template literals

A hole is read without a look at what follows its closing brace.  So the text of a hole
can be cut out of a template literal, and it is the same hole wherever it is put.

Main results:

- Definition `Forgets`: a reader that does not look at the end of what it leaves.
- Theorem `readKey_eq_ok_iff`: what a key is.
- Theorem `forgets_readHole`: a hole is the same hole alone.
-/

namespace Phrasebook.Script

open Text

variable {α : Type} {s rest : List Char}

/-! ## Readers that look at nothing they leave -/

/-- A reader that gives the same when the end of what it leaves is cut off. -/
def Forgets (item : Reader Fault α) : Prop :=
  ∀ s value cut left, item s = .ok (value, cut ++ left) →
    ∃ front, s = front ++ left ∧ item front = .ok (value, cut)

/-- A string is closed where it was without what follows it. -/
theorem closeString?_forgets {escaped : Bool} {inner cut left : List Char}
    (hs : closeString? escaped s = some (inner, cut ++ left)) :
    ∃ front, s = front ++ left ∧ closeString? escaped front = some (inner, cut) := by
  induction s generalizing escaped inner with
  | nil => simp [closeString?] at hs
  | cons c s ih =>
    simp only [closeString?] at hs
    split at hs
    · rename_i hquote
      simp only [Option.some.injEq, Prod.mk.injEq] at hs
      refine ⟨c :: cut, by simp [hs.2], ?_⟩
      rw [closeString?, if_pos hquote, hs.1]
    · rename_i hquote
      obtain ⟨⟨letters, behind⟩, hread, heq⟩ := Option.map_eq_some_iff.mp hs
      simp only [Prod.mk.injEq] at heq
      obtain ⟨rfl, rfl⟩ := heq
      obtain ⟨front, rfl, hfront⟩ := ih hread
      refine ⟨c :: front, rfl, ?_⟩
      rw [closeString?, if_neg hquote, hfront]
      rfl

theorem forgets_readString : Forgets readString := by
  intro s text cut left hread
  cases s with
  | nil => simp [readString, stopAtEnd] at hread
  | cons quote s =>
    simp only [readString] at hread
    cases hclosed : closeString? false s with
    | none => simp [hclosed, stopAtEnd] at hread
    | some closed =>
      obtain ⟨inner, behind⟩ := closed
      simp only [hclosed] at hread
      cases hwhole : Json.readWhole Json.readString (quote :: inner) with
      | error stop => simp [hwhole, stopBefore] at hread
      | ok found =>
        simp only [hwhole, Except.ok.injEq, Prod.mk.injEq] at hread
        obtain ⟨rfl, rfl⟩ := hread
        obtain ⟨front, rfl, hfront⟩ := closeString?_forgets hclosed
        exact ⟨quote :: front, rfl, by simp [readString, hfront, hwhole]⟩

/-- A run of digits is the same run without what follows it. -/
theorem digitRun_forgets {cut left : List Char} (hrun : (Json.digitRun s).2 = cut ++ left) :
    ∃ front, s = front ++ left ∧ Json.digitRun front = ((Json.digitRun s).1, cut) := by
  have hstop : ∀ c ∈ cut.head?, c.isDigit = false := by
    intro c hc
    have hhead := List.head?_dropWhile_not Char.isDigit s
    rw [show s.dropWhile Char.isDigit = cut ++ left from hrun, List.head?_append,
      Option.mem_def.mp hc] at hhead
    exact hhead
  refine ⟨(Json.digitRun s).1 ++ cut, ?_, ?_⟩
  · rw [List.append_assoc, ← hrun, Json.digitRun_append]
  · exact Json.digitRun_append_of_digits
      (fun c hc => List.all_eq_true.mp List.all_takeWhile c hc) hstop

/-- A key is a string for a name, or a run of digits for a place. -/
theorem readKey_eq_ok_iff {key : Key} : readKey s = .ok (key, rest) ↔
    (s.head? = some '"' ∧ ∃ name, readString s = .ok (name, rest) ∧ key = .named name) ∨
      ((∃ c ∈ s.head?, c.isDigit = true) ∧ ∃ place : Index,
        Nat.ofDigitChars 10 (Json.digitRun s).1 0 = place.val ∧ (Json.digitRun s).2 = rest ∧
          key = .index place) := by
  cases s with
  | nil => simp [readKey, stopAtEnd]
  | cons c s =>
    by_cases hquote : c = '"'
    · subst hquote
      simp only [readKey, if_true, List.head?_cons, true_and]
      constructor
      · intro hread
        obtain ⟨⟨name, behind⟩, hname, heq⟩ := ok_of_map hread
        simp only [Prod.mk.injEq] at heq
        exact Or.inl ⟨name, by rw [hname, heq.2], heq.1.symm⟩
      · rintro (⟨name, hname, rfl⟩ | ⟨⟨c, hc, hdigit⟩, -⟩)
        · rw [hname]
          rfl
        · rw [← Option.some.inj hc] at hdigit
          exact absurd hdigit (by decide)
    by_cases hdigit : c.isDigit = true
    · by_cases hfits : Nat.ofDigitChars 10 (Json.digitRun (c :: s)).1 0 < 18446744073709551616
      · simp only [readKey, hquote, hdigit, hfits, if_true, if_false, dif_pos, List.head?_cons]
        constructor
        · intro hread
          simp only [Except.ok.injEq, Prod.mk.injEq] at hread
          exact Or.inr ⟨⟨c, rfl, hdigit⟩, _, rfl, hread.2, hread.1.symm⟩
        · rintro (⟨hhead, -⟩ | ⟨-, place, hplace, rfl, rfl⟩)
          · exact absurd (Option.some.inj hhead) hquote
          · simp only [hplace]
      · simp only [readKey, hquote, hdigit, hfits, if_true, if_false, dif_neg, not_false_eq_true,
          List.head?_cons]
        constructor
        · intro hread
          simp [stopBefore] at hread
        · rintro (⟨hhead, -⟩ | ⟨-, place, hplace, -⟩)
          · exact absurd (Option.some.inj hhead) hquote
          · exact absurd place.isLt (hplace ▸ hfits)
    · simp [readKey, hquote, hdigit, stopBefore]

theorem forgets_readKey : Forgets readKey := by
  intro s key cut left hread
  rcases readKey_eq_ok_iff.mp hread with ⟨hhead, name, hname, rfl⟩ |
    ⟨⟨c, hc, hdigit⟩, place, hplace, hrest, rfl⟩
  · obtain ⟨front, rfl, hfront⟩ := forgets_readString _ _ _ _ hname
    have hsome : front ≠ [] := by
      rintro rfl
      simp [readString, stopAtEnd] at hfront
    rw [List.head?_append_of_ne_nil _ hsome] at hhead
    exact ⟨front, rfl, readKey_eq_ok_iff.mpr (Or.inl ⟨hhead, name, hfront, rfl⟩)⟩
  · obtain ⟨front, hs, hfront⟩ := digitRun_forgets hrest
    have hsome : front ≠ [] := by
      rintro rfl
      have hnil : (Json.digitRun s).1 = [] := (congrArg Prod.fst hfront).symm
      rw [Json.digitRun, List.takeWhile_eq_nil_iff] at hnil
      obtain ⟨others, rfl⟩ := List.head?_eq_some_iff.mp hc
      exact hnil (by simp) hdigit
    have hhead : ∃ c ∈ front.head?, c.isDigit = true := by
      rw [hs, List.head?_append_of_ne_nil _ hsome] at hc
      exact ⟨c, hc, hdigit⟩
    exact ⟨front, hs, readKey_eq_ok_iff.mpr
      (Or.inr ⟨hhead, place, by rw [hfront, hplace], by rw [hfront], rfl⟩)⟩

/-- A hole is the same hole without what follows its closing brace. -/
theorem forgets_readHole {key : Key} (hread : readHole s = .ok (key, rest)) :
    ∃ hole, s = hole ++ rest ∧ readHole hole = .ok (key, []) := by
  obtain ⟨⟨found, behind⟩, hkey, hread⟩ := ok_of_bind hread
  obtain ⟨closed, hclose, hread⟩ := ok_of_bind hread
  simp only [Except.ok.injEq, Prod.mk.injEq] at hread
  obtain ⟨rfl, rfl⟩ := hread
  obtain ⟨before, hs, hbefore⟩ := exists_blank_trimStart s
  obtain ⟨gap, hbehind, hgap⟩ := exists_blank_trimStart behind
  rw [expect_eq_ok_iff.mp hclose] at hbehind
  have hcut : behind = gap ++ ['}'] ++ closed := by simpa using hbehind
  rw [hcut] at hkey
  obtain ⟨front, hfront, hread⟩ := forgets_readKey _ _ _ _ hkey
  refine ⟨before ++ front, by rw [List.append_assoc, ← hfront, ← hs], ?_⟩
  have hvisible : trimStart front = front := by
    refine trimStart_eq_self fun c hc => isBlank_head_trimStart s c ?_
    rw [hfront, List.head?_append, hc]
    rfl
  have hbrace : trimStart (gap ++ ['}']) = ['}'] := by
    rw [trimStart_append_of_blank hgap]
    exact trimStart_cons_of_not_isBlank (by decide)
  simp [readHole, trimStart_append_of_blank hbefore, hvisible, hread, hbrace, expect, bind,
    Except.bind]

end Phrasebook.Script

import Phrasebook.Proofs.Script.Sequences

/-!
# Compiled sources that go on

What the readers of compiled sources find in a text they also find in every longer
text.  A word or a number may grow when the text goes on, so a scalar is found again
only when something stands behind it.  Everything else ends with a character that
closes it and is found again in any case.

Main results:

- Theorem `settles_readTemplateBody`: a template literal ends at its closing
  backtick, whatever comes later.
- Theorem `settles_readItems`: the same for arrays and objects.
- Theorem `readValue_append`: a value is found again in a longer text, unless it is
  a scalar at the very end.
-/

namespace Phrasebook.Script

open Text

variable {more : List Char}

/-! ## Characters, words and literals -/

/-- A character that stands at the front of a text stands there in a longer one. -/
theorem expect_append {c : Char} {s rest : List Char} (hs : expect c s = .ok rest)
    (more : List Char) : expect c (s ++ more) = .ok (rest ++ more) := by
  rw [expect_eq_ok_iff] at hs ⊢
  rw [hs, List.cons_append]

/-- What was expected in a text makes sure that the text is there. -/
theorem ne_nil_of_expect {c : Char} {s rest : List Char} (hs : expect c s = .ok rest) :
    s ≠ [] := by
  rw [expect_eq_ok_iff] at hs
  rw [hs]
  exact List.cons_ne_nil c rest

/-- White space in front of an expected character does not matter. -/
theorem expect_trimStart_append {c : Char} {s rest : List Char}
    (hs : expect c (trimStart s) = .ok rest) (more : List Char) :
    expect c (trimStart (s ++ more)) = .ok (rest ++ more) := by
  rw [trimStart_append_of_ne_nil (ne_nil_of_expect hs)]
  exact expect_append hs more

/-- What is left without leading white space was there before. -/
theorem ne_nil_of_trimStart {s : List Char} (hs : trimStart s ≠ []) : s ≠ [] := by
  rintro rfl
  exact hs trimStart_nil

/-- A word that ended inside a text is the same word in a longer one. -/
theorem wordRun_append_of_left {s : List Char} (hleft : (wordRun s).2 ≠ [])
    (more : List Char) : wordRun (s ++ more) = ((wordRun s).1, (wordRun s).2 ++ more) := by
  rw [wordRun, takeWhile_append_of_left hleft, dropWhile_append_of_left hleft]
  rfl

/-- The closing quote of a string is found again. -/
theorem closeString?_append {escaped : Bool} {s inner rest : List Char}
    (hs : closeString? escaped s = some (inner, rest)) (more : List Char) :
    closeString? escaped (s ++ more) = some (inner, rest ++ more) := by
  induction s generalizing escaped inner with
  | nil => simp [closeString?] at hs
  | cons c s ih =>
    simp only [closeString?, List.cons_append] at hs ⊢
    split at hs
    · rename_i hquote
      simp only [Option.some.injEq, Prod.mk.injEq] at hs
      rw [if_pos hquote, hs.1, hs.2]
    · rename_i hquote
      obtain ⟨⟨letters, behind⟩, hread, heq⟩ := Option.map_eq_some_iff.mp hs
      simp only [Prod.mk.injEq] at heq
      rw [if_neg hquote, ih (hread.trans (by rw [heq.2]))]
      simp [heq.1]

/-- A string literal ends at its closing quote, whatever comes later. -/
theorem settles_readString : Settles more readString readString := by
  intro s text rest hread
  cases s with
  | nil => simp [readString, stopAtEnd] at hread
  | cons quote s =>
    simp only [readString, List.cons_append] at hread ⊢
    cases hclosed : closeString? false s with
    | none => simp [hclosed, stopAtEnd] at hread
    | some closed =>
      obtain ⟨inner, behind⟩ := closed
      simp only [hclosed] at hread
      rw [closeString?_append hclosed more]
      cases hwhole : Json.readWhole Json.readString (quote :: inner) with
      | error stop => simp [hwhole, stopBefore] at hread
      | ok found =>
        simp only [hwhole, Except.ok.injEq, Prod.mk.injEq] at hread
        simp [hwhole, hread.1, hread.2]

/-- A number literal ends where something else begins. -/
theorem extends_readNumber : Extends more readNumber readNumber := by
  intro s n rest hread hrest
  simp only [readNumber] at hread ⊢
  cases hwhole : Json.readWhole Json.readNumber (s.takeWhile isNumberChar) with
  | error stop => simp [hwhole, stopBefore] at hread
  | ok found =>
    simp only [hwhole, Except.ok.injEq, Prod.mk.injEq] at hread
    have hleft : s.dropWhile isNumberChar ≠ [] := by
      rwa [hread.2]
    rw [takeWhile_append_of_left hleft, dropWhile_append_of_left hleft, hwhole]
    simp [hread.1, hread.2]

/-! ## Template literals -/

/-- Bytes that were taken inside a text are the same in a longer one. -/
theorem takeBytes_append {count : Nat} {s taken rest : List Char}
    (hs : takeBytes count s = some (taken, rest)) (hrest : rest ≠ []) (more : List Char) :
    takeBytes count (s ++ more) = some (taken, rest ++ more) := by
  induction s generalizing count taken with
  | nil =>
    simp only [takeBytes, Option.some.injEq, Prod.mk.injEq] at hs
    exact absurd hs.2.symm hrest
  | cons c s ih =>
    cases count with
    | zero =>
      simp only [takeBytes, Option.some.injEq, Prod.mk.injEq] at hs
      simp [takeBytes, ← hs.1, ← hs.2]
    | succ count =>
      simp only [takeBytes, List.cons_append] at hs ⊢
      split at hs
      · rename_i hfits
        obtain ⟨⟨others, behind⟩, hread, heq⟩ := Option.map_eq_some_iff.mp hs
        simp only [Prod.mk.injEq] at heq
        rw [if_pos hfits, ih (hread.trans (by rw [heq.2]))]
        simp [heq.1]
      · simp at hs

/-- The character of a code point is found again behind its last digit or brace. -/
theorem extends_readCodePoint : Extends more readCodePoint readCodePoint := by
  intro s c rest hread hrest
  unfold readCodePoint at hread
  split at hread
  · rename_i s
    obtain ⟨behind, hclose, hread⟩ := ok_of_bind hread
    have hleft := ne_nil_of_expect hclose
    rw [List.cons_append, readCodePoint, takeWhile_append_of_left hleft,
      dropWhile_append_of_left hleft, expect_append hclose]
    cases hcode : charOfHex? (s.takeWhile fun c => (hexDigit? c).isSome) with
    | none => simp [hcode, stopBefore] at hread
    | some found =>
      simp only [hcode, Except.ok.injEq, Prod.mk.injEq] at hread
      simp [bind, Except.bind, hread.1, hread.2]
  · rename_i hplain
    cases htaken : takeBytes 4 s with
    | none => simp [htaken] at hread
    | some taken =>
      obtain ⟨digits, behind⟩ := taken
      cases hcode : charOfSignedHex? digits with
      | none => simp [htaken, hcode, stopBefore] at hread
      | some found =>
        simp only [htaken, hcode, Except.ok.injEq, Prod.mk.injEq] at hread
        obtain ⟨rfl, rfl⟩ := hread
        unfold readCodePoint
        split
        · rename_i t hbrace
          cases s with
          | nil =>
            simp only [takeBytes, Option.some.injEq, Prod.mk.injEq] at htaken
            exact absurd htaken.2.symm hrest
          | cons first s =>
            simp only [List.cons_append, List.cons.injEq] at hbrace
            exact (hplain s (by rw [hbrace.1])).elim
        · rw [takeBytes_append htaken hrest]
          simp [hcode]

/-- Every escape but that of a code point is one letter. -/
theorem exists_readEscape {letter : Char} (hletter : letter ≠ 'u') :
    ∃ meant, ∀ s, readEscape (letter :: s) = .ok (meant, s) := by
  simp only [readEscape, hletter, if_false]
  by_cases hn : letter = 'n'
  · exact ⟨'\n', by simp [hn]⟩
  by_cases hr : letter = 'r'
  · exact ⟨'\r', by simp [hr]⟩
  by_cases ht : letter = 't'
  · exact ⟨'\t', by simp [ht]⟩
  by_cases hzero : letter = '0'
  · exact ⟨'\x00', by simp [hzero]⟩
  · exact ⟨letter, by simp [hn, hr, ht, hzero]⟩

/-- An escape is found again behind its last character. -/
theorem extends_readEscape : Extends more readEscape readEscape := by
  intro s c rest hread hrest
  cases s with
  | nil => simp [readEscape, stopAtEnd] at hread
  | cons letter s =>
    by_cases hunicode : letter = 'u'
    · subst hunicode
      simp only [readEscape, List.cons_append] at hread ⊢
      exact extends_readCodePoint s c rest hread hrest
    · obtain ⟨meant, hmeant⟩ := exists_readEscape hunicode
      rw [hmeant, Except.ok.injEq, Prod.mk.injEq] at hread
      rw [List.cons_append, hmeant, hread.1, hread.2]

/-- A key is found again in front of what closes its hole. -/
theorem extends_readKey : Extends more readKey readKey := by
  intro s key rest hread hrest
  cases s with
  | nil => simp [readKey, stopAtEnd] at hread
  | cons c s =>
    simp only [readKey, List.cons_append] at hread ⊢
    split at hread
    · rename_i hquote
      obtain ⟨⟨name, behind⟩, hname, hread⟩ := ok_of_map hread
      simp only [Prod.mk.injEq] at hread
      have hlonger := @settles_readString more _ _ _ hname
      rw [if_pos hquote, ← List.cons_append, hlonger]
      simp [Except.map, hread.1, hread.2]
    · rename_i hquote
      split at hread
      · rename_i hdigit
        split at hread
        · rename_i hfits
          simp only [Except.ok.injEq, Prod.mk.injEq] at hread
          have hleft : (c :: s).dropWhile Char.isDigit ≠ [] := by
            rw [← hread.2] at hrest
            exact hrest
          have hrun : Json.digitRun (c :: (s ++ more)) =
              ((Json.digitRun (c :: s)).1, (Json.digitRun (c :: s)).2 ++ more) := by
            rw [← List.cons_append, Json.digitRun, takeWhile_append_of_left hleft,
              dropWhile_append_of_left hleft]
            rfl
          simp only [hquote, if_false, hdigit, if_true, hrun, hfits, dif_pos]
          simp [hread.1, hread.2]
        · simp [stopBefore] at hread
      · simp [stopBefore] at hread

/-- A hole ends at its closing brace, whatever comes later. -/
theorem settles_readHole : Settles more readHole readHole := by
  intro s key rest hread
  obtain ⟨⟨found, behind⟩, hkey, hread⟩ := ok_of_bind hread
  obtain ⟨closed, hclose, hread⟩ := ok_of_bind hread
  simp only [Except.ok.injEq, Prod.mk.injEq] at hread
  obtain ⟨rfl, rfl⟩ := hread
  have hleft : behind ≠ [] := ne_nil_of_trimStart (ne_nil_of_expect hclose)
  have hfront : trimStart s ≠ [] := by
    intro hnil
    simp [hnil, readKey, stopAtEnd] at hkey
  have hlonger := @extends_readKey more _ _ _ hkey hleft
  simp [readHole, trimStart_append_of_ne_nil hfront, hlonger, bind, Except.bind,
    expect_trimStart_append hclose]

/-- The body of a template literal is never empty: it has its closing backtick. -/
theorem ne_nil_of_readTemplateBody {s rest : List Char} {i : Interpolation}
    (hread : readTemplateBody s = .ok (i, rest)) : s ≠ [] := by
  rintro rfl
  rw [readTemplateBody] at hread
  simp [stopAtEnd] at hread

/-- A template literal ends at its closing backtick, whatever comes later. -/
theorem settles_readTemplateBody : Settles more readTemplateBody readTemplateBody := by
  intro s
  induction hlength : s.length using Nat.strongRecOn generalizing s with
  | ind length ih =>
    intro i rest hread
    cases s with
    | nil => exact (ne_nil_of_readTemplateBody hread rfl).elim
    | cons c s =>
      rw [List.length_cons] at hlength
      by_cases hbacktick : c = '\x60'
      · subst hbacktick
        rw [readTemplateBody_backtick, Except.ok.injEq, Prod.mk.injEq] at hread
        rw [List.cons_append, readTemplateBody_backtick, hread.1, hread.2]
      by_cases hbackslash : c = '\\'
      · subst hbackslash
        rw [readTemplateBody_backslash] at hread
        obtain ⟨⟨meant, behind⟩, hescape, hread⟩ := ok_of_bind hread
        have hshorter := length_of_readEscape hescape
        obtain ⟨⟨others, left⟩, hbody, -⟩ := ok_of_map hread
        have hmore := @extends_readEscape more s meant behind hescape
          (ne_nil_of_readTemplateBody hbody)
        rw [List.cons_append, readTemplateBody_escape hmore]
        exact map_append (pushChar meant) hread fun others hbody _ =>
          ih behind.length (by omega) behind rfl others rest hbody
      by_cases hdollar : c = '$' ∧ s.head? = some '{'
      · obtain ⟨rfl, hhead⟩ := hdollar
        obtain ⟨s, rfl⟩ := List.head?_eq_some_iff.mp hhead
        rw [readTemplateBody_dollar] at hread
        obtain ⟨⟨key, behind⟩, hhole, hread⟩ := ok_of_bind hread
        have hshorter := length_of_readHole hhole
        rw [List.length_cons] at hlength
        have hmore := @settles_readHole more s key behind hhole
        rw [List.cons_append, List.cons_append, readTemplateBody_hole hmore]
        exact map_append (fun others => others.prependKey key) hread fun others hbody _ =>
          ih behind.length (by omega) behind rfl others rest hbody
      · rw [readTemplateBody_plain hbacktick hbackslash hdollar] at hread
        obtain ⟨⟨others, left⟩, hbody, -⟩ := ok_of_map hread
        have hnext : ¬(c = '$' ∧ (s ++ more).head? = some '{') := by
          obtain ⟨next, s, rfl⟩ :=
            List.exists_cons_of_ne_nil (ne_nil_of_readTemplateBody hbody)
          simpa using hdollar
        rw [List.cons_append, readTemplateBody_plain hbacktick hbackslash hnext]
        exact map_append (pushChar c) hread fun others hbody _ =>
          ih s.length (by omega) s rfl others rest hbody

/-! ## Functions and words -/

theorem settles_readTemplate : Settles more readTemplate readTemplate := by
  intro s i rest hread
  obtain ⟨behind, hopen, hread⟩ := ok_of_bind hread
  simp only [readTemplate, expect_append hopen, bind, Except.bind]
  exact settles_readTemplateBody behind i rest hread

/-- A function ends with its template, whatever comes later. -/
theorem settles_readFunction (param : List Char) :
    Settles more (readFunction param) (readFunction param) := by
  intro s i rest hread
  obtain ⟨behind, hequals, hread⟩ := ok_of_bind hread
  obtain ⟨call, harrow, hread⟩ := ok_of_bind hread
  have hcall : trimStart call ≠ [] := by
    intro hnil
    simp [hnil, stopAtEnd] at hread
  simp only [readFunction, expect_trimStart_append hequals, expect_append harrow,
    trimStart_append_of_ne_nil hcall, bind, Except.bind]
  cases hhead : trimStart call with
  | nil => exact absurd hhead hcall
  | cons c s =>
    simp only [hhead, List.cons_append] at hread ⊢
    split at hread
    · simp [stopBefore] at hread
    rename_i hstart
    split at hread
    · simp [stopBefore] at hread
    rename_i hparam
    have htemplate : trimStart (wordRun (c :: s)).2 ≠ [] := by
      intro hnil
      simp [hnil, readTemplate, expect, stopAtEnd, bind, Except.bind] at hread
    have hrun := wordRun_append_of_left (ne_nil_of_trimStart htemplate) more
    rw [List.cons_append] at hrun
    rw [if_neg hstart, hrun, if_neg hparam, trimStart_append_of_ne_nil htemplate]
    exact settles_readTemplate _ i rest hread

/-- Something stands behind the parameter of a function. -/
theorem ne_nil_of_readFunction {param s rest : List Char} {i : Interpolation}
    (hread : readFunction param s = .ok (i, rest)) : s ≠ [] := by
  obtain ⟨behind, hequals, -⟩ := ok_of_bind hread
  exact ne_nil_of_trimStart (ne_nil_of_expect hequals)

/-- The scalar or the function that a word starts is found again, unless it is a
scalar at the very end. -/
theorem readWordValue_append {s rest : List Char} {tree : Tree Phrase}
    (hread : readWordValue s = .ok (tree, rest))
    (hstop : rest ≠ [] ∨ ∀ value, tree ≠ .data value) (more : List Char) :
    readWordValue (s ++ more) = .ok (tree, rest ++ more) := by
  have hscalar : ∀ {value : Scalar},
      (.ok (.data value, (wordRun s).2) : Except (Stop Fault) _) = .ok (tree, rest) →
        (wordRun s).2 ≠ [] ∧ tree = .data value ∧ (wordRun s).2 = rest := by
    intro value heq
    simp only [Except.ok.injEq, Prod.mk.injEq] at heq
    obtain ⟨rfl, rfl⟩ := heq
    rcases hstop with hrest | hdata
    · exact ⟨hrest, rfl, rfl⟩
    · exact absurd rfl (hdata value)
  simp only [readWordValue] at hread ⊢
  split at hread
  · rename_i hword
    obtain ⟨hleft, rfl, hrest⟩ := hscalar hread
    rw [wordRun_append_of_left hleft, if_pos hword, hrest]
  rename_i htrue
  split at hread
  · rename_i hword
    obtain ⟨hleft, rfl, hrest⟩ := hscalar hread
    rw [wordRun_append_of_left hleft, if_neg htrue, if_pos hword, hrest]
  rename_i hfalse
  split at hread
  · rename_i hword
    obtain ⟨hleft, rfl, hrest⟩ := hscalar hread
    rw [wordRun_append_of_left hleft, if_neg htrue, if_neg hfalse, if_pos hword, hrest]
  rename_i hnull
  obtain ⟨⟨i, behind⟩, hfunction, -⟩ := ok_of_map hread
  have hleft := ne_nil_of_readFunction hfunction
  rw [wordRun_append_of_left hleft, if_neg htrue, if_neg hfalse, if_neg hnull]
  exact map_append (fun i => Tree.cases (.single (Phrase.interpolated i))) hread
    fun i hfunction _ => settles_readFunction _ _ i rest hfunction

/-! ## Arrays and objects -/

/-- An array or an object ends at its closing character, whatever comes later, when
its items are found again and none of them is empty. -/
theorem settles_readItems {α : Type} {close : Char} (hclose : close ≠ ',')
    {short long : Reader Fault α} (hitem : Extends more short long)
    (hempty : ∀ result, short [] ≠ .ok result) {budget larger : Nat}
    (hbudget : budget ≤ larger) :
    Settles more (readItems close short budget) (readItems close long larger) := by
  intro s
  induction budget generalizing larger s with
  | zero =>
    intro items rest hread
    simp [readItems, stopAtEnd] at hread
  | succ budget ih =>
    intro items rest hread
    obtain ⟨larger, rfl⟩ : ∃ less, larger = less + 1 := ⟨larger - 1, by omega⟩
    rw [readItems_succ_eq_ok_iff hclose] at hread ⊢
    rcases hread with ⟨hend, rfl⟩ | ⟨first, behind, hopen, hfirst, htail⟩
    · rw [trimStart_append_of_ne_nil (by simp [hend]), hend]
      exact Or.inl ⟨rfl, rfl⟩
    · have hstart : trimStart s ≠ [] := by
        intro hnil
        rw [hnil] at hfirst
        exact hempty _ hfirst
      have hbehind : trimStart behind ≠ [] := by
        rcases htail with ⟨next, others, hcomma, -⟩ | ⟨hend, -⟩
        · simp [hcomma]
        · simp [hend]
      have hhead : (trimStart s ++ more).head? ≠ some close := by
        obtain ⟨c, t, ht⟩ := List.exists_cons_of_ne_nil hstart
        simpa [ht] using hopen
      have hlonger := hitem _ _ _ hfirst (ne_nil_of_trimStart hbehind)
      rw [trimStart_append_of_ne_nil hstart]
      refine Or.inr ⟨first, behind ++ more, hhead, hlonger, ?_⟩
      rw [trimStart_append_of_ne_nil hbehind]
      rcases htail with ⟨next, others, hcomma, hothers, rfl⟩ | ⟨hend, rfl⟩
      · have hrest := ih (show budget ≤ larger by omega) next others rest hothers
        exact Or.inl ⟨next ++ more, others, by rw [hcomma, List.cons_append], hrest, rfl⟩
      · exact Or.inr ⟨by rw [hend, List.cons_append], rfl⟩

/-- The name of an entry is found again in front of what follows it. -/
theorem extends_readName : Extends more readName readName := by
  intro s name rest hread hrest
  cases s with
  | nil => simp [readName, stopAtEnd] at hread
  | cons c s =>
    simp only [readName, List.cons_append] at hread ⊢
    split at hread
    · rename_i hquote
      rw [if_pos hquote]
      exact settles_readString (c :: s) name rest hread
    · rename_i hquote
      split at hread
      · rename_i hstart
        simp only [Except.ok.injEq, Prod.mk.injEq] at hread
        have hrun := @wordRun_append_of_left (c :: s) (by rwa [hread.2]) more
        rw [List.cons_append] at hrun
        simp [hquote, hstart, hrun, hread.1, hread.2]
      · simp [stopBefore] at hread

/-- An entry is found again when its value is. -/
theorem extends_readEntry {α : Type} {short long : Reader Fault α}
    (hitem : Extends more short long) :
    Extends more (readEntry short) (readEntry long) := by
  intro s entry rest hread hrest
  obtain ⟨⟨name, behind⟩, hname, hread⟩ := ok_of_bind hread
  obtain ⟨value, hcolon, hread⟩ := ok_of_bind hread
  obtain ⟨⟨found, left⟩, hvalue, hread⟩ := ok_of_bind hread
  simp only [Except.ok.injEq, Prod.mk.injEq] at hread
  obtain ⟨rfl, rfl⟩ := hread
  have hbehind : behind ≠ [] := ne_nil_of_trimStart (ne_nil_of_expect hcolon)
  have hmore := @extends_readName more s name behind hname hbehind
  simp [readEntry, hmore, bind, Except.bind, expect_trimStart_append hcolon,
    hitem _ _ _ hvalue hrest]

/-! ## Values -/

/-- A value is found again when its items are, unless it is a scalar at the very
end. -/
theorem readValueWith_append {short long : Reader Fault (Tree Phrase)}
    (hitem : Extends more short long) (hempty : ∀ result, short [] ≠ .ok result)
    {s rest : List Char} {tree : Tree Phrase}
    (hread : readValueWith short s = .ok (tree, rest))
    (hstop : rest ≠ [] ∨ ∀ value, tree ≠ .data value) :
    readValueWith long (s ++ more) = .ok (tree, rest ++ more) := by
  have hstart : trimStart s ≠ [] := by
    intro hnil
    simp [readValueWith, hnil, stopAtEnd] at hread
  simp only [readValueWith, trimStart_append_of_ne_nil hstart] at hread ⊢
  obtain ⟨c, behind, hhead⟩ := List.exists_cons_of_ne_nil hstart
  have hlength : behind.length + 1 ≤ (behind ++ more).length + 1 := by
    simp
  simp only [hhead, List.cons_append] at hread ⊢
  split at hread
  · rename_i hquote
    rw [if_pos hquote]
    exact map_append (fun text => Tree.cases (.single (Phrase.fixed text))) hread
      fun text hstring _ => settles_readString (c :: behind) text rest hstring
  rename_i hquote
  split at hread
  · rename_i hbracket
    rw [if_neg hquote, if_pos hbracket]
    exact map_append treeOfItems hread fun items hitems _ =>
      settles_readItems (by simp) hitem hempty hlength behind items rest hitems
  rename_i hbracket
  split at hread
  · rename_i hbrace
    have hname : ∀ result, readEntry short [] ≠ .ok result := by
      intro result
      simp [readEntry, readName, stopAtEnd, bind, Except.bind]
    rw [if_neg hquote, if_neg hbracket, if_pos hbrace]
    exact map_append (fun entries => Tree.map (Entries.ofList entries)) hread
      fun entries hentries _ => settles_readItems (by simp) (extends_readEntry hitem) hname
        hlength behind entries rest hentries
  rename_i hbrace
  split at hread
  · rename_i hdigit
    rw [if_neg hquote, if_neg hbracket, if_neg hbrace, if_pos hdigit]
    refine map_append (fun n => Tree.data (.number n)) hread ?_
    intro n hnumber heq
    have hrest : rest ≠ [] := by
      rcases hstop with hrest | hdata
      · exact hrest
      · exact absurd heq.symm (hdata _)
    exact extends_readNumber (c :: behind) n rest hnumber hrest
  rename_i hdigit
  split at hread
  · rename_i hword
    have hmore := readWordValue_append hread hstop more
    rw [if_neg hquote, if_neg hbracket, if_neg hbrace, if_neg hdigit, if_pos hword]
    exact hmore
  · simp [stopBefore] at hread

/-- A value is found again in every longer text, unless it is a scalar at the very
end. -/
theorem readValue_append {depth deeper : Nat} (hdepth : depth ≤ deeper) {s rest : List Char}
    {tree : Tree Phrase} (hread : readValue depth s = .ok (tree, rest))
    (hstop : rest ≠ [] ∨ ∀ value, tree ≠ .data value) (more : List Char) :
    readValue deeper (s ++ more) = .ok (tree, rest ++ more) := by
  induction depth generalizing deeper s rest tree with
  | zero => simp [readValue, stopAtEnd] at hread
  | succ depth ih =>
    obtain ⟨deeper, rfl⟩ : ∃ less, deeper = less + 1 := ⟨deeper - 1, by omega⟩
    have hitem : Extends more (readValue depth) (readValue deeper) := by
      intro s tree rest hread hrest
      exact ih (by omega) hread (Or.inl hrest)
    have hempty : ∀ result, readValue depth [] ≠ .ok result := by
      intro result
      cases depth <;> simp [readValue, readValueWith, stopAtEnd]
    exact readValueWith_append hitem hempty hread hstop

end Phrasebook.Script

import Phrasebook.Proofs.Template.Cases
import Phrasebook.Template.Parse

/-!
# Joining the cases again

The cases of a template can be joined to one template again, with a bar between each two
of them and a space at either side of it.  This drops or adds white space next to the bars
that were cut at and changes nothing else.  White space inside a literal token may be
changed as well, namely next to a bar that the token would hold; but whether a text starts
with a token never depends on it.  So no token is made or lost, and the joined template is
cut where the first one was.

Main results:

- Definition `Respaced`: two lists that differ in white space next to bars and at the end.
- Theorem `startsToken_of_respaced`: texts that are respaced start with tokens alike.
- Theorem `Marked.respaced`: respacing a decomposition leaves a decomposition.
- Theorem `map_trimAtoms_cutAtoms_joined`: cutting what was joined gives the cases.
- Theorem `split_joined`: splitting is stable under joining the cases again.
-/

namespace Phrasebook.Template

open Text

/-! ## White space next to bars -/

/-- Two lists that differ in the white space next to bars and at their ends, and in nothing
else. -/
inductive Respaced {α : Type} (isBlank : α → Bool) (bar : α) : List α → List α → Prop where
  /-- White space at the end. -/
  | ends {first second : List α} (hfirst : ∀ a ∈ first, isBlank a = true)
      (hsecond : ∀ a ∈ second, isBlank a = true) : Respaced isBlank bar first second
  /-- Anything that both have in common. -/
  | same (a : α) {s t : List α} (hrest : Respaced isBlank bar s t) :
      Respaced isBlank bar (a :: s) (a :: t)
  /-- White space at either side of a bar. -/
  | bar {before after before' after' s t : List α} (hbefore : ∀ a ∈ before, isBlank a = true)
      (hafter : ∀ a ∈ after, isBlank a = true) (hbefore' : ∀ a ∈ before', isBlank a = true)
      (hafter' : ∀ a ∈ after', isBlank a = true) (hrest : Respaced isBlank bar s t) :
      Respaced isBlank bar (before ++ bar :: (after ++ s)) (before' ++ bar :: (after' ++ t))

namespace Respaced

variable {α : Type} {isBlank : α → Bool} {bar : α} {s t : List α}

/-- What both have in common goes in front. -/
theorem append_left (front : List α) (hrest : Respaced isBlank bar s t) :
    Respaced isBlank bar (front ++ s) (front ++ t) := by
  induction front with
  | nil => exact hrest
  | cons a front ih => exact .same a ih

/-- What holds no bar and ends with something visible is common to both. -/
theorem exists_of_visible {front rest : List α} {a : α}
    (h : Respaced isBlank bar s (front ++ a :: rest)) (hfront : bar ∉ front)
    (hbar : a ≠ bar) (ha : isBlank a = false) :
    ∃ left, s = front ++ a :: left ∧ Respaced isBlank bar left rest := by
  generalize hwhole : front ++ a :: rest = whole at h
  induction h generalizing front with
  | ends hfirst hsecond =>
    have hblank := hsecond a (by simp [← hwhole])
    simp [ha] at hblank
  | @same b s t hrest ih =>
    cases front with
    | nil =>
      simp only [List.nil_append, List.cons.injEq] at hwhole
      rcases hwhole with ⟨rfl, rfl⟩
      exact ⟨s, rfl, hrest⟩
    | cons c front =>
      simp only [List.cons_append, List.cons.injEq] at hwhole
      rcases hwhole with ⟨rfl, rfl⟩
      obtain ⟨left, rfl, hleft⟩ := ih (fun hmem => hfront (List.mem_cons_of_mem _ hmem)) rfl
      exact ⟨left, rfl, hleft⟩
  | bar hbefore hafter hbefore' hafter' hrest ih =>
    -- The bar stands behind white space, so it would be in front of `a`.
    rcases List.append_eq_append_iff.mp hwhole with ⟨middle, hblanks, hmiddle⟩ |
      ⟨middle, rfl, hmiddle⟩
    · cases middle with
      | nil => simp [hbar] at hmiddle
      | cons b middle =>
        simp only [List.cons_append, List.cons.injEq] at hmiddle
        have hblank := hbefore' a (by simp [hblanks, hmiddle.1])
        simp [ha] at hblank
    · cases middle with
      | nil => simp [Ne.symm hbar] at hmiddle
      | cons b middle =>
        simp only [List.cons_append, List.cons.injEq] at hmiddle
        exact absurd (by simp [hmiddle.1]) hfront

/-- What is up to the first of some visible elements, bars included, is up to the first of
them in both. -/
theorem exists_of_first {content rest : List α} {a : α}
    (h : Respaced isBlank bar s (content ++ a :: rest)) (hcontent : a ∉ content)
    (hbar : a ≠ bar) (ha : isBlank a = false) :
    ∃ held left, a ∉ held ∧ s = held ++ a :: left ∧ Respaced isBlank bar left rest := by
  have hvisible : ∀ blanks : List α, (∀ b ∈ blanks, isBlank b = true) → a ∉ blanks := by
    intro blanks hblanks hmem
    simp [hblanks a hmem] at ha
  generalize hwhole : content ++ a :: rest = whole at h
  induction h generalizing content with
  | ends hfirst hsecond => exact absurd (by simp [← hwhole]) (hvisible _ hsecond)
  | @same b s t hrest ih =>
    cases content with
    | nil =>
      simp only [List.nil_append, List.cons.injEq] at hwhole
      rcases hwhole with ⟨rfl, rfl⟩
      exact ⟨[], s, List.not_mem_nil, rfl, hrest⟩
    | cons c content =>
      simp only [List.cons_append, List.cons.injEq] at hwhole
      rcases hwhole with ⟨rfl, rfl⟩
      rw [List.mem_cons, not_or] at hcontent
      obtain ⟨held, left, hheld, rfl, hleft⟩ := ih hcontent.2 rfl
      exact ⟨c :: held, left, by simp [hcontent.1, hheld], rfl, hleft⟩
  | @bar before after before' after' s t hbefore hafter hbefore' hafter' hrest ih =>
    have hfront : a ∉ before' ++ bar :: after' := by
      simp [hvisible _ hbefore', hvisible _ hafter', hbar]
    have hsplit : content ++ a :: rest = (before' ++ bar :: after') ++ t := by
      rw [hwhole]
      simp
    rcases List.append_eq_append_iff.mp hsplit with ⟨middle, hlonger, hmiddle⟩ |
      ⟨middle, rfl, hmiddle⟩
    · cases middle with
      | nil =>
        obtain ⟨held, left, hheld, rfl, hleft⟩ := @ih [] List.not_mem_nil hmiddle
        refine ⟨before ++ bar :: (after ++ held), left, ?_, by simp, hleft⟩
        simp [hvisible _ hbefore, hvisible _ hafter, hbar, hheld]
      | cons b middle =>
        simp only [List.cons_append, List.cons.injEq] at hmiddle
        exact absurd (by simp [hlonger, hmiddle.1]) hfront
    · rw [List.mem_append, not_or] at hcontent
      obtain ⟨held, left, hheld, rfl, hleft⟩ := ih hcontent.2 hmiddle.symm
      refine ⟨before ++ bar :: (after ++ held), left, ?_, by simp, hleft⟩
      simp [hvisible _ hbefore, hvisible _ hafter, hbar, hheld]

end Respaced

/-! ## Tokens in respaced texts -/

/-- White space holds no bar. -/
private theorem bar_notMem_of_blank {blanks : List Char}
    (hblanks : ∀ c ∈ blanks, isBlank c = true) : '|' ∉ blanks :=
  fun hmem => absurd (hblanks _ hmem) (by decide)

/-- A name in braces is there in both texts. -/
private theorem exists_name_of_respaced {before name after s rest : List Char}
    (hbefore : ∀ c ∈ before, isBlank c = true) (hafter : ∀ c ∈ after, isBlank c = true)
    (hname : ∀ c ∈ name, isNameChar c = true)
    (h : Respaced isBlank '|' s (braced before name after ++ rest)) :
    ∃ left, s = braced before name after ++ left := by
  have hfront : '|' ∉ '{' :: before ++ name ++ after := by
    have hnamed : '|' ∉ name := fun hmem => absurd (hname _ hmem) (by decide)
    simp [bar_notMem_of_blank hbefore, bar_notMem_of_blank hafter, hnamed]
  have hwhole : braced before name after ++ rest =
      ('{' :: before ++ name ++ after) ++ '}' :: rest := by
    simp [braced]
  rw [hwhole] at h
  obtain ⟨left, rfl, -⟩ := h.exists_of_visible hfront (by decide) (by decide)
  exact ⟨left, by simp [braced]⟩

/-- Where a text starts with a token, a text that differs in white space next to bars does
so too.  A literal token may hold such bars. -/
theorem startsToken_of_respaced {s t : List Char} (h : Respaced isBlank '|' s t)
    (ht : StartsToken t) : StartsToken s := by
  rcases ht with ⟨⟨text, item, htoken⟩, rest, rfl⟩
  cases htoken with
  | @literal before content after hbefore hafter hcontent =>
    have hopen : '|' ∉ '{' :: before := by simp [bar_notMem_of_blank hbefore]
    have hwhole : braced before ('\'' :: content ++ ['\'']) after ++ rest =
        ('{' :: before) ++ '\'' :: (content ++ '\'' :: (after ++ '}' :: rest)) := by
      simp [braced]
    rw [hwhole] at h
    obtain ⟨inside, rfl, hinside⟩ := h.exists_of_visible hopen (by decide) (by decide)
    obtain ⟨held, behind, hheld, rfl, hbehind⟩ :=
      hinside.exists_of_first hcontent (by decide) (by decide)
    obtain ⟨left, rfl, -⟩ :=
      hbehind.exists_of_visible (bar_notMem_of_blank hafter) (by decide) (by decide)
    exact ⟨⟨_, _, .literal hbefore hafter hheld⟩, left, by simp [braced]⟩
  | index hbefore hafter hsome hdigits hfits =>
    have hname := fun c hc => isNameChar_of_isDigit (hdigits c hc)
    obtain ⟨left, rfl⟩ := exists_name_of_respaced hbefore hafter hname h
    exact ⟨⟨_, _, .index hbefore hafter hsome hdigits hfits⟩, left, rfl⟩
  | named hbefore hafter hsome hname hother =>
    obtain ⟨left, rfl⟩ := exists_name_of_respaced hbefore hafter hname h
    exact ⟨⟨_, _, .named hbefore hafter hsome hname hother⟩, left, rfl⟩

/-! ## Respaced decompositions -/

/-- Atoms that are white space spell white space. -/
private theorem isBlank_of_mem_textOf {blanks : List Atom}
    (hblanks : ∀ atom ∈ blanks, atom.isBlank = true) :
    ∀ c ∈ textOf blanks, isBlank c = true := by
  intro c hc
  obtain ⟨atom, hatom, hmem⟩ := List.mem_flatMap.mp hc
  cases atom with
  | char d =>
    rw [List.mem_singleton.mp hmem]
    exact hblanks _ hatom
  | token token => exact absurd (hblanks _ hatom) (by simp [Atom.isBlank])

/-- Atoms that are respaced spell texts that are. -/
theorem respaced_textOf {atoms others : List Atom}
    (h : Respaced Atom.isBlank (.char '|') atoms others) :
    Respaced isBlank '|' (textOf atoms) (textOf others) := by
  induction h with
  | ends hfirst hsecond =>
    exact .ends (isBlank_of_mem_textOf hfirst) (isBlank_of_mem_textOf hsecond)
  | same atom hrest ih => exact ih.append_left atom.text
  | bar hbefore hafter hbefore' hafter' hrest ih =>
    simp only [textOf_append, textOf_char]
    exact .bar (isBlank_of_mem_textOf hbefore) (isBlank_of_mem_textOf hafter)
      (isBlank_of_mem_textOf hbefore') (isBlank_of_mem_textOf hafter') ih

/-- No token starts at white space or at a bar. -/
private theorem Marked.append_blank {blanks atoms : List Atom} (hatoms : Marked atoms)
    (hblanks : ∀ atom ∈ blanks, atom.isBlank = true ∨ atom = .char '|') :
    Marked (blanks ++ atoms) := by
  induction blanks with
  | nil => exact hatoms
  | cons atom blanks ih =>
    rw [List.forall_mem_cons] at hblanks
    have hrest := ih hblanks.2
    cases atom with
    | token token => exact hrest
    | char c =>
      refine ⟨?_, hrest⟩
      rintro ⟨token, rest, hstart⟩
      obtain ⟨inside, htext⟩ := token.exists_braces
      simp only [htext, List.cons_append, List.cons.injEq] at hstart
      rcases hblanks.1 with hblank | hbar
      · rw [hstart.1] at hblank
        exact absurd hblank (by decide)
      · simp [hstart.1] at hbar

/-- Respacing a decomposition leaves a decomposition: no token starts where none did. -/
theorem Marked.respaced {atoms others : List Atom} (hatoms : Marked atoms)
    (h : Respaced Atom.isBlank (.char '|') atoms others) : Marked others := by
  induction h with
  | ends hfirst hsecond =>
    have hmarked := @Marked.append_blank _ [] trivial fun atom hatom => Or.inl (hsecond atom hatom)
    rwa [List.append_nil] at hmarked
  | same atom hrest ih =>
    cases atom with
    | token token => exact ih hatoms
    | char c =>
      refine ⟨fun hstart => hatoms.1 ?_, ih hatoms.2⟩
      exact startsToken_of_respaced (.same c (respaced_textOf hrest)) hstart
  | @bar before after before' after' s t hbefore hafter hbefore' hafter' hrest ih =>
    have hs : Marked s := hatoms.of_isInfix ⟨before ++ .char '|' :: after, [], by simp⟩
    have hfront : ∀ atom ∈ before' ++ .char '|' :: after',
        atom.isBlank = true ∨ atom = .char '|' := by
      intro atom hatom
      rw [List.mem_append, List.mem_cons] at hatom
      rcases hatom with hmem | hbar | hmem
      · exact Or.inl (hbefore' atom hmem)
      · exact Or.inr hbar
      · exact Or.inl (hafter' atom hmem)
    have hmarked := Marked.append_blank (ih hs) hfront
    simpa using hmarked

/-! ## Joining cases -/

/-- Cases joined with a bar between each two of them and a space at either side of it. -/
def joined (segments : List (List Atom)) : List Atom :=
  [Atom.char ' ', .char '|', .char ' '].intercalate segments

/-- A bar ends the white space in front of it. -/
private theorem dropWhile_append_bar (front rest : List Atom) :
    (front ++ .char '|' :: rest).dropWhile Atom.isBlank =
      front.dropWhile Atom.isBlank ++ .char '|' :: rest := by
  induction front with
  | nil => exact List.dropWhile_cons_of_neg (by decide)
  | cons atom front ih =>
    by_cases hatom : atom.isBlank = true
    · simp [hatom, ih]
    · simp [hatom]

/-- Without the white space at their front, atoms are what trimming leaves and the white
space at their end. -/
private theorem exists_blank_trimAtoms (atoms : List Atom) :
    ∃ back, atoms.dropWhile Atom.isBlank = trimAtoms atoms ++ back ∧
      ∀ atom ∈ back, atom.isBlank = true := by
  refine ⟨(atoms.dropWhile Atom.isBlank).rtakeWhile Atom.isBlank, ?_, ?_⟩
  · exact (List.rdropWhile_append_rtakeWhile ..).symm
  · exact fun atom hatom => List.mem_rtakeWhile_imp hatom

/-- Trimming cases and joining them again changes white space next to their bars and at
both ends of the whole. -/
theorem respaced_joined (segments : List (List Atom)) :
    Respaced Atom.isBlank (.char '|')
      (([Atom.char '|'].intercalate segments).dropWhile Atom.isBlank)
      (joined (segments.map trimAtoms)) := by
  induction segments with
  | nil => exact .ends (by simp) (by simp [joined])
  | cons segment segments ih =>
    obtain ⟨back, hsegment, hback⟩ := exists_blank_trimAtoms segment
    cases segments with
    | nil =>
      have hends : Respaced Atom.isBlank (.char '|') back [] := .ends hback (by simp)
      simpa [joined, hsegment] using hends.append_left (trimAtoms segment)
    | cons second segments =>
      let behind := [Atom.char '|'].intercalate (second :: segments)
      have hspace : ∀ atom ∈ [Atom.char ' '], atom.isBlank = true := by decide
      have hfront : ∀ atom ∈ behind.takeWhile Atom.isBlank, atom.isBlank = true :=
        fun atom hatom => List.all_eq_true.mp List.all_takeWhile atom hatom
      have hbar := (Respaced.bar hback hfront hspace hspace ih).append_left (trimAtoms segment)
      rw [List.takeWhile_append_dropWhile] at hbar
      simpa [joined, behind, List.intercalate_cons_cons, dropWhile_append_bar, hsegment]
        using hbar

/-! ## Cutting what was joined -/

/-- A space in front is trimmed. -/
private theorem trimAtoms_space_cons (atoms : List Atom) :
    trimAtoms (.char ' ' :: atoms) = trimAtoms atoms := by
  rw [trimAtoms, List.dropWhile_cons_of_pos (by decide)]
  rfl

/-- So is a space at the end. -/
private theorem trimAtoms_append_space (atoms : List Atom) :
    trimAtoms (atoms ++ [.char ' ']) = trimAtoms atoms := by
  rw [trimAtoms, trimAtoms, List.dropWhile_append]
  by_cases hblank : atoms.dropWhile Atom.isBlank = []
  · simp [hblank, Atom.isBlank]
  · rw [if_neg (by simpa using hblank), List.rdropWhile_concat_pos _ _ _ (by decide)]

/-- The first bar to cut at ends the first case. -/
private theorem Uncut.cutAtoms_append {previous : Option Atom} {segment : List Atom}
    (hsegment : Uncut previous segment) (rest : List Atom) :
    cutAtoms previous (segment ++ .char ' ' :: .char '|' :: rest) =
      (segment ++ [.char ' ']) :: cutAtoms (some (.char '|')) rest := by
  induction segment generalizing previous with
  | nil => simp [cutAtoms]
  | cons atom segment ih =>
    obtain ⟨hatom, hrest⟩ := hsegment
    rw [List.cons_append, cutAtoms, if_neg (fun hcut => hcut.2 (hatom hcut.1)), ih hrest]
    rfl

/-- Cutting what was joined gives the cases, with the spaces beside their bars. -/
theorem map_trimAtoms_cutAtoms_joined {previous : Option Atom} {segments : List (List Atom)}
    (hsome : segments ≠ []) (hsegments : ∀ segment ∈ segments, Uncut none segment)
    (hprevious : previous ≠ some (.char '\\')) :
    (cutAtoms previous (joined segments)).map trimAtoms = segments.map trimAtoms := by
  induction segments generalizing previous with
  | nil => exact absurd rfl hsome
  | cons segment segments ih =>
    rw [List.forall_mem_cons] at hsegments
    have hsegment : Uncut previous segment := hsegments.1.of_ne (by simp)
    cases segments with
    | nil => rw [joined, List.intercalate_singleton, hsegment.cutAtoms_eq]
    | cons second segments =>
      have hjoined : joined (segment :: second :: segments) =
          segment ++ .char ' ' :: .char '|' :: .char ' ' :: joined (second :: segments) := by
        simp [joined, List.intercalate_cons_cons]
      have hspace : ∀ cases : List (List Atom),
          (cases.modifyHead (Atom.char ' ' :: ·)).map trimAtoms = cases.map trimAtoms := by
        intro cases
        cases cases <;> simp [trimAtoms_space_cons]
      have hrest := @ih (some (.char ' ')) (by simp) hsegments.2 (by simp)
      rw [hjoined, hsegment.cutAtoms_append, cutAtoms, if_neg (by simp), List.map_cons,
        trimAtoms_append_space, hspace, hrest]
      rfl

/-! ## Templates -/

/-- Joining atoms joins what they spell. -/
private theorem textOf_intercalate (separator : List Atom) (segments : List (List Atom)) :
    textOf (separator.intercalate segments) =
      (textOf separator).intercalate (segments.map textOf) := by
  induction segments with
  | nil => rfl
  | cons segment segments ih =>
    cases segments with
    | nil => simp
    | cons second segments =>
      rw [List.intercalate_cons_cons, textOf_append, textOf_append, ih]
      simp [List.intercalate_cons_cons]

/-- Joined cases spell what their texts make when they are joined. -/
theorem intercalate_eq_joined (segments : List (List Atom)) :
    " | ".intercalate (segments.map fun segment => String.ofList (textOf segment)) =
      String.ofList (textOf (joined segments)) := by
  rw [← String.toList_inj, String.toList_intercalate, String.toList_ofList, joined,
    textOf_intercalate, List.map_map]
  simp [Function.comp_def]

/-- The decomposition of a template, with its cases trimmed and joined again, is a
decomposition. -/
theorem marked_joined {atoms : List Atom} (hatoms : Marked atoms) :
    Marked (joined ((cutAtoms none atoms).map trimAtoms)) := by
  have hrespaced := respaced_joined (cutAtoms none atoms)
  rw [intercalate_cutAtoms] at hrespaced
  have hfront : Marked (atoms.dropWhile Atom.isBlank) :=
    hatoms.of_isInfix (List.dropWhile_suffix _).isInfix
  exact hfront.respaced hrespaced

/-- Joining the cases of a template again, with a bar and a space at either side of it
between each two of them, gives a template with the same cases and so the same messages. -/
theorem split_joined (template : String) :
    split (" | ".intercalate (split template)) = split template ∧
      parse (" | ".intercalate (split template)) = parse template := by
  obtain ⟨atoms, htext, hatoms⟩ := exists_marked template.toList
  let segments := (cutAtoms none atoms).map trimAtoms
  have hsplit : split template = segments.map fun segment => String.ofList (textOf segment) := by
    rw [← String.ofList_toList (s := template), ← htext, split_eq_map_cutAtoms hatoms,
      List.map_map]
    rfl
  have hsegments : ∀ segment ∈ segments, Uncut none segment := by
    intro segment hsegment
    obtain ⟨part, hpart, rfl⟩ := List.mem_map.mp hsegment
    exact (uncut_of_mem_cutAtoms hpart).trimAtoms
  have hcut : (cutAtoms none (joined segments)).map trimAtoms = segments.map trimAtoms :=
    map_trimAtoms_cutAtoms_joined (by simp [segments, cutAtoms_ne_nil]) hsegments (by simp)
  have htrimmed : ∀ segment ∈ split template, String.ofList (trim segment.toList) = segment := by
    intro segment hsegment
    rw [trim_of_mem_split hsegment, String.ofList_toList]
  have hsame : split (" | ".intercalate (split template)) = split template :=
    calc split (" | ".intercalate (split template))
        = ((cutAtoms none (joined segments)).map trimAtoms).map
            (fun segment => String.ofList (textOf segment)) := by
          rw [hsplit, intercalate_eq_joined, split_eq_map_cutAtoms (marked_joined hatoms),
            List.map_map]
          rfl
      _ = (split template).map (fun segment => String.ofList (trim segment.toList)) := by
          simp [hcut, hsplit, trim_textOf]
      _ = split template := (List.map_congr_left htrimmed).trans (List.map_id' _)
  exact ⟨hsame, by rw [parse, parse, hsame]⟩

/-- A case that ends with a backslash does not escape the bar behind it. -/
example : " | ".intercalate (split "a\\  |b|c") = "a\\ | b | c" := by decide +kernel

end Phrasebook.Template

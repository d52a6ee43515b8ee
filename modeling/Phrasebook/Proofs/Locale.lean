import Phrasebook.Locale
import Phrasebook.Proofs.Text.Runs

/-!
# Dialects of locales

The dialects of a locale are found by cutting it at its last hyphen again and again.
A hyphen that nothing stands before is never cut at, so no dialect is empty unless
the locale is.

Main results:

- Theorem `beforeLast?_append`: a text is cut at the separator that no other one
  follows.
- Theorem `beforeLast?_eq_some_iff`: what stands before the last separator.
- Theorem `concat_prefix_iff_beforeLast?`: the fronts of a text that a separator follows
  are what stands before its last separator, and the fronts of that.
- Theorem `dialects_append`: a locale with one more subtag has itself and the
  dialects of the locale as its dialects.
- Theorem `dialects_suffix_of_mem`: the dialects of a dialect are the rest of those
  that it stands among.
- Theorem `findSome?_dialects_eq_some_iff`: the first dialect with an image is the longest
  one.
- Theorem `dialects_prefixes`: the dialects of a locale are the locale and its fronts
  up to a hyphen, except the empty one.
-/

namespace Phrasebook

open Text

/-- From its end on, a text without separators is passed as a whole. -/
private theorem bne_of_mem_reverse {separator : Char} {text : List Char}
    (htext : separator ∉ text) : ∀ c ∈ text.reverse, (c != separator) = true := by
  intro c hc
  rw [bne_iff_ne]
  exact fun hsame => htext (hsame ▸ List.mem_reverse.mp hc)

/-- A text is cut at the separator that no other one follows, unless nothing stands
before it. -/
theorem Text.beforeLast?_append {separator : Char} {back : List Char}
    (hback : separator ∉ back) (front : List Char) :
    beforeLast? separator (front ++ separator :: back) =
      if front = [] then none else some front := by
  have hreverse : (front ++ separator :: back).reverse =
      back.reverse ++ separator :: front.reverse := by
    simp
  have hstop : ∀ c ∈ (separator :: front.reverse).head?, (c != separator) = false := by
    simp
  unfold beforeLast?
  rw [hreverse, dropWhile_append_of_stop (bne_of_mem_reverse hback) hstop, List.tail_cons]
  cases hfront : front.reverse with
  | nil => simp [List.reverse_eq_nil_iff.mp hfront]
  | cons c rest =>
    have hne : front ≠ [] := by
      rintro rfl
      simp at hfront
    simp only [if_neg hne, ← hfront, List.reverse_reverse]

theorem Text.beforeLast?_of_notMem {separator : Char} {text : List Char}
    (htext : separator ∉ text) : beforeLast? separator text = none := by
  have hdropped : text.reverse.dropWhile (· != separator) = [] :=
    List.dropWhile_eq_nil_iff.mpr (bne_of_mem_reverse htext)
  rw [beforeLast?, hdropped, List.tail_nil]

/-- A text with a separator in it has a last one. -/
theorem Text.exists_last {separator : Char} {text : List Char} (htext : separator ∈ text) :
    ∃ front back, text = front ++ separator :: back ∧ separator ∉ back := by
  obtain ⟨back, front, hreverse, hback⟩ :=
    List.eq_append_cons_of_mem (List.mem_reverse.mpr htext)
  refine ⟨front.reverse, back.reverse, ?_, by simpa using hback⟩
  rw [List.reverse_eq_iff.mp hreverse]
  simp

/-- What stands before the last separator is not empty, and no separator stands behind. -/
theorem Text.beforeLast?_eq_some_iff {separator : Char} {text front : List Char} :
    beforeLast? separator text = some front ↔
      front ≠ [] ∧ ∃ back, text = front ++ separator :: back ∧ separator ∉ back := by
  constructor
  · intro hcut
    by_cases htext : separator ∈ text
    · obtain ⟨before, back, rfl, hback⟩ := exists_last htext
      rw [beforeLast?_append hback] at hcut
      split at hcut
      · cases hcut
      · rename_i hbefore
        cases hcut
        exact ⟨hbefore, back, rfl, hback⟩
    · rw [beforeLast?_of_notMem htext] at hcut
      cases hcut
  · rintro ⟨hfront, back, rfl, hback⟩
    rw [beforeLast?_append hback, if_neg hfront]

/-- Up to a separator a text goes on to the last one, or ends at an earlier one. -/
theorem Text.concat_prefix_append_iff {separator : Char} {start front back : List Char}
    (hback : separator ∉ back) :
    start ++ [separator] <+: front ++ separator :: back ↔
      start = front ∨ start ++ [separator] <+: front := by
  constructor
  · rintro ⟨rest, hrest⟩
    rw [List.append_assoc, List.singleton_append, List.append_eq_append_iff] at hrest
    rcases hrest with ⟨middle, hfront, hmiddle⟩ | ⟨middle, hstart, hmiddle⟩
    · cases middle with
      | nil => exact Or.inl (by simpa using hfront.symm)
      | cons c middle =>
        obtain ⟨rfl, -⟩ := List.cons_eq_cons.mp hmiddle
        exact Or.inr ⟨middle, by simp [hfront]⟩
    · cases middle with
      | nil => exact Or.inl (by simpa using hstart)
      | cons c middle =>
        -- the separator behind `start` would stand behind the last one
        obtain ⟨-, htail⟩ := List.cons_eq_cons.mp hmiddle
        exact absurd (by simp [htail]) hback
  · rintro (rfl | hstart)
    · exact ⟨back, by simp⟩
    · exact hstart.trans (List.prefix_append front _)

/-- The fronts of a text that a separator follows are what stands before its last
separator, and the fronts of that. -/
theorem Text.concat_prefix_iff_beforeLast? {separator : Char} {start text : List Char}
    (hstart : start ≠ []) :
    start ++ [separator] <+: text ↔
      ∃ front, beforeLast? separator text = some front ∧
        (start = front ∨ start ++ [separator] <+: front) := by
  by_cases htext : separator ∈ text
  · obtain ⟨front, back, rfl, hback⟩ := exists_last htext
    rw [concat_prefix_append_iff hback, beforeLast?_append hback]
    by_cases hfront : front = []
    · simp [hfront, hstart]
    · simp [hfront]
  · have hnot : ¬start ++ [separator] <+: text :=
      fun hfront => htext (hfront.subset (by simp))
    simp [hnot, beforeLast?_of_notMem htext]

namespace Locale

/-- The dialects of a tag are the tag and those of what stands before its last hyphen. -/
theorem chain_eq (tag : List Char) :
    chain tag = tag ::
      match beforeLast? '-' tag with
      | none => []
      | some shorter => chain shorter := by
  rw [chain]
  split <;> rename_i hcut <;> simp only [hcut]

/-- The first dialect of a tag is the tag. -/
theorem chain_eq_cons (tag : List Char) : chain tag = tag :: (chain tag).tail := by
  rw [chain_eq, List.tail_cons]

/-- Behind a tag stand the dialects of what stands before its last hyphen. -/
theorem tail_chain {tag shorter : List Char} (hcut : beforeLast? '-' tag = some shorter) :
    (chain tag).tail = chain shorter := by
  rw [chain_eq, hcut, List.tail_cons]

/-- A tag with one more subtag has itself and the dialects of the tag as its dialects. -/
theorem chain_append {tag subtag : List Char} (htag : tag ≠ []) (hsubtag : '-' ∉ subtag) :
    chain (tag ++ '-' :: subtag) = (tag ++ '-' :: subtag) :: chain tag := by
  rw [chain_eq, beforeLast?_append hsubtag, if_neg htag]

/-- A locale with one more subtag has itself and the dialects of the locale as its
dialects. -/
theorem dialects_append {locale subtag : String} (hlocale : locale ≠ "")
    (hsubtag : '-' ∉ subtag.toList) :
    dialects (locale ++ "-" ++ subtag) = (locale ++ "-" ++ subtag) :: dialects locale := by
  have hlist : (locale ++ "-" ++ subtag).toList =
      locale.toList ++ '-' :: subtag.toList := by
    simp
  have htag : locale.toList ≠ [] := by
    simpa using hlocale
  rw [dialects, hlist, chain_append htag hsubtag, ← hlist, List.map_cons,
    String.ofList_toList, dialects]

/-- The dialects of one of the dialects of a tag are the rest from there on. -/
theorem chain_suffix_of_mem {tag dialect : List Char} (hdialect : dialect ∈ chain tag) :
    chain dialect <:+ chain tag := by
  induction tag using chain.induct with
  | case1 tag hcut =>
    rw [chain_eq, hcut, List.mem_singleton] at hdialect
    exact hdialect ▸ List.suffix_refl _
  | case2 tag shorter hcut _ ih =>
    have hchain : chain tag = tag :: chain shorter := by
      rw [chain_eq_cons, tail_chain hcut]
    rw [hchain] at hdialect
    rcases List.mem_cons.mp hdialect with rfl | hshorter
    · exact List.suffix_refl _
    · rw [hchain]
      exact (ih hshorter).trans (List.suffix_cons tag (chain shorter))

/-- The dialects of one of the dialects of a locale are the rest from there on. -/
theorem dialects_suffix_of_mem {locale dialect : String}
    (hdialect : dialect ∈ dialects locale) : dialects dialect <:+ dialects locale := by
  obtain ⟨tag, htag, rfl⟩ := List.mem_map.mp hdialect
  rw [dialects, String.toList_ofList]
  exact (chain_suffix_of_mem htag).map String.ofList

/-! ## Dialects as fronts of a tag -/

/-- Behind the tag itself stand its fronts up to a hyphen, and no others. -/
theorem mem_tail_chain_iff {tag dialect : List Char} :
    dialect ∈ (chain tag).tail ↔ dialect ≠ [] ∧ dialect ++ ['-'] <+: tag := by
  induction tag using chain.induct with
  | case1 tag hcut =>
    rw [chain_eq, hcut]
    constructor
    · simp
    · rintro ⟨hdialect, hprefix⟩
      rw [concat_prefix_iff_beforeLast? hdialect, hcut] at hprefix
      simp at hprefix
  | case2 tag shorter hcut hlength ih =>
    have hshorter := (beforeLast?_eq_some_iff.mp hcut).1
    rw [tail_chain hcut, chain_eq_cons, List.mem_cons, ih]
    constructor
    · rintro (rfl | ⟨hdialect, hprefix⟩)
      · exact ⟨hshorter, (concat_prefix_iff_beforeLast? hshorter).mpr
          ⟨dialect, hcut, Or.inl rfl⟩⟩
      · exact ⟨hdialect, (concat_prefix_iff_beforeLast? hdialect).mpr
          ⟨shorter, hcut, Or.inr hprefix⟩⟩
    · rintro ⟨hdialect, hprefix⟩
      rw [concat_prefix_iff_beforeLast? hdialect, hcut] at hprefix
      simpa [hdialect] using hprefix

/-- Every dialect is shorter than those before it. -/
theorem pairwise_chain (tag : List Char) :
    (chain tag).Pairwise fun longer shorter => shorter.length < longer.length := by
  induction tag using chain.induct with
  | case1 tag hcut =>
    rw [chain_eq, hcut]
    exact List.pairwise_singleton _ _
  | case2 tag shorter hcut hlength ih =>
    have htail := tail_chain hcut
    rw [chain_eq_cons, List.pairwise_cons, htail]
    refine ⟨fun dialect hdialect => ?_, ih⟩
    have hprefix := (mem_tail_chain_iff.mp (htail ▸ hdialect)).2.length_le
    rw [List.length_append, List.length_singleton] at hprefix
    omega

/-- The first dialect of a locale is the locale. -/
theorem dialects_eq_cons (locale : String) :
    dialects locale = locale :: (dialects locale).tail := by
  rw [dialects, chain_eq_cons, List.map_cons, String.ofList_toList, List.tail_cons]

theorem mem_tail_dialects_iff {locale dialect : String} :
    dialect ∈ (dialects locale).tail ↔
      dialect ≠ "" ∧ (dialect ++ "-").toList <+: locale.toList := by
  have hmem : dialect ∈ (dialects locale).tail ↔
      dialect.toList ∈ (chain locale.toList).tail := by
    rw [dialects, ← List.map_tail, List.mem_map]
    constructor
    · rintro ⟨tag, htag, rfl⟩
      rwa [String.toList_ofList]
    · intro htag
      exact ⟨dialect.toList, htag, String.ofList_toList⟩
  rw [hmem, mem_tail_chain_iff, String.toList_append]
  simp

theorem pairwise_dialects (locale : String) :
    (dialects locale).Pairwise fun longer shorter => shorter.length < longer.length := by
  rw [dialects, List.pairwise_map]
  refine (pairwise_chain locale.toList).imp fun hlength => ?_
  simpa using hlength

/-- Going through the dialects of a locale finds what its longest dialect with an image
has. -/
theorem findSome?_dialects_eq_some_iff {α : Type} {locale : String} {f : String → Option α}
    {image : α} :
    (dialects locale).findSome? f = some image ↔
      ∃ dialect ∈ dialects locale, f dialect = some image ∧
        ∀ longer ∈ dialects locale, dialect.length < longer.length → f longer = none := by
  have hpairwise := pairwise_dialects locale
  rw [List.findSome?_eq_some_iff]
  constructor
  · rintro ⟨before, dialect, after, hdialects, himage, hbefore⟩
    rw [hdialects] at hpairwise ⊢
    rw [List.pairwise_append, List.pairwise_cons] at hpairwise
    refine ⟨dialect, by simp, himage, fun longer hmem hlength => ?_⟩
    rcases List.mem_append.mp hmem with hmem | hmem
    · exact hbefore longer hmem
    · -- from the dialect on there is nothing longer
      rcases List.mem_cons.mp hmem with rfl | hmem
      · omega
      · have hshorter := hpairwise.2.1.1 longer hmem
        omega
  · rintro ⟨dialect, hdialect, himage, hlonger⟩
    obtain ⟨before, after, hdialects⟩ := List.append_of_mem hdialect
    rw [hdialects, List.pairwise_append] at hpairwise
    refine ⟨before, dialect, after, hdialects, himage, fun longer hmem => ?_⟩
    exact hlonger longer (by simp [hdialects, hmem])
      (hpairwise.2.2 longer hmem dialect List.mem_cons_self)

/-- The dialects of a locale are the locale and then, every one shorter than the one
before it, exactly the fronts of the locale that a hyphen follows and that are not
empty.  Only the empty locale has an empty dialect.  And the dialects of a dialect are
those of the locale from there on. -/
theorem dialects_prefixes (locale : String) :
    (dialects locale).head? = some locale ∧
    (∀ dialect, dialect ∈ (dialects locale).tail ↔
      dialect ≠ "" ∧ (dialect ++ "-").toList <+: locale.toList) ∧
    (dialects locale).Pairwise (fun longer shorter => shorter.length < longer.length) ∧
    ("" ∈ dialects locale ↔ locale = "") ∧
    ∀ dialect ∈ dialects locale,
      (dialects locale).dropWhile (· ≠ dialect) = dialects dialect := by
  refine ⟨?_, fun dialect => mem_tail_dialects_iff, pairwise_dialects locale, ?_, ?_⟩
  · rw [dialects_eq_cons, List.head?_cons]
  · rw [dialects_eq_cons, List.mem_cons, mem_tail_dialects_iff]
    simp [eq_comm]
  · intro dialect hdialect
    obtain ⟨before, hbefore⟩ := dialects_suffix_of_mem hdialect
    have hpairwise := pairwise_dialects locale
    rw [← hbefore, List.pairwise_append] at hpairwise
    have hself : dialect ∈ dialects dialect := by
      rw [dialects_eq_cons]
      exact List.mem_cons_self
    have hlonger : ∀ longer ∈ before, decide (longer ≠ dialect) = true := by
      intro longer hmem
      have hlength := hpairwise.2.2 longer hmem dialect hself
      rw [decide_eq_true_iff]
      rintro rfl
      omega
    rw [← hbefore, List.dropWhile_append_of_pos hlonger, dialects_eq_cons,
      List.dropWhile_cons_of_neg (by simp)]

theorem dialects_prefixes_repeated :
    "en-" ∈ dialects "en--US" ∧
      (dialects "en--US").dropWhile (· ≠ "en-") = dialects "en-" := by
  obtain ⟨-, hmem, -, -, hrest⟩ := dialects_prefixes "en--US"
  have hdialect : "en-" ∈ dialects "en--US" := by
    rw [dialects_eq_cons]
    exact List.mem_cons_of_mem _ ((hmem "en-").mpr (by decide))
  exact ⟨hdialect, hrest "en-" hdialect⟩

end Locale

end Phrasebook

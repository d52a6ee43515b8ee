import Phrasebook.Proofs.Script.CodePoints
import Phrasebook.Proofs.Script.Contexts
import Phrasebook.Proofs.Script.Holes

/-!
# Escapes in template literals

A template literal is made of characters that stand for themselves, escapes and holes.
The reader accepts these literals and no others.  An escape of a code point stands for
its character wherever the literal stands in a source, and where a backslash and the
letter `u` are followed by anything else the whole source is refused.

Main results:

- Definition `TemplateText`: the texts between the backticks of a template literal.
- Theorem `exists_readTemplateBody_iff`: the reader accepts these texts in front of a
  backtick and nothing else.
- Definition `InTemplate`: what stands in front of a place in a template literal.
- Theorem `unicodeEscapes_accepted`: what the escapes of code points stand for, and that
  nothing else is accepted in their place.
-/

namespace Phrasebook.Script

open Text

variable {s rest written : List Char} {c : Char}

/-! ## Texts of template literals -/

/-- The texts between the backticks of a template literal. -/
inductive TemplateText : List Char → Prop
  | nil : TemplateText []
  /-- A character that stands for itself. -/
  | plain {c : Char} {rest : List Char} (hbacktick : c ≠ '\x60') (hbackslash : c ≠ '\\')
      (hdollar : ¬(c = '$' ∧ rest.head? = some '{')) (hrest : TemplateText rest) :
      TemplateText (c :: rest)
  /-- An escape of one letter. -/
  | letter {letter : Char} {rest : List Char} (hletter : letter ≠ 'u')
      (hrest : TemplateText rest) : TemplateText ('\\' :: letter :: rest)
  /-- An escape of a code point. -/
  | unicode {written rest : List Char} {c : Char} (hwritten : UnicodeEscape written c)
      (hrest : TemplateText rest) : TemplateText ('\\' :: 'u' :: (written ++ rest))
  /-- A hole. -/
  | hole {hole rest : List Char} {key : Key} (hhole : readHole hole = .ok (key, []))
      (hrest : TemplateText rest) : TemplateText ('$' :: '{' :: (hole ++ rest))

/-- An escape of a code point gives one character, and reading goes on right behind it. -/
theorem readTemplateBody_unicode (hwritten : UnicodeEscape written c) (rest : List Char) :
    readTemplateBody ('\\' :: 'u' :: (written ++ rest)) =
      (readTemplateBody rest).map fun read => (pushChar c read.1, read.2) := by
  refine readTemplateBody_escape ?_
  simpa [readEscape] using readCodePoint_append hwritten rest

/-- The text of a template literal is passed, and reading goes on behind it. -/
theorem TemplateText.exists_read {text : List Char} (htext : TemplateText text) :
    ∃ grow : Interpolation → Interpolation, ∀ s, s.head? ≠ some '{' →
      readTemplateBody (text ++ s) =
        (readTemplateBody s).map fun read => (grow read.1, read.2) := by
  induction htext with
  | nil =>
    refine ⟨id, fun s _ => ?_⟩
    rw [List.nil_append]
    cases readTemplateBody s <;> rfl
  | @plain c rest hbacktick hbackslash hdollar _ ih =>
    obtain ⟨grow, hgrow⟩ := ih
    refine ⟨pushChar c ∘ grow, fun s hs => ?_⟩
    have hnext : ¬(c = '$' ∧ (rest ++ s).head? = some '{') := by
      cases rest with
      | nil => simp [hs]
      | cons next rest => simpa using hdollar
    rw [List.cons_append, readTemplateBody_plain hbacktick hbackslash hnext, hgrow s hs]
    cases readTemplateBody s <;> rfl
  | letter hletter _ ih =>
    obtain ⟨grow, hgrow⟩ := ih
    obtain ⟨meant, hmeant⟩ := exists_readEscape hletter
    refine ⟨pushChar meant ∘ grow, fun s hs => ?_⟩
    rw [List.cons_append, List.cons_append, readTemplateBody_escape (hmeant _), hgrow s hs]
    cases readTemplateBody s <;> rfl
  | @unicode written rest c hwritten _ ih =>
    obtain ⟨grow, hgrow⟩ := ih
    refine ⟨pushChar c ∘ grow, fun s hs => ?_⟩
    rw [List.cons_append, List.cons_append, List.append_assoc,
      readTemplateBody_unicode hwritten, hgrow s hs]
    cases readTemplateBody s <;> rfl
  | @hole hole rest key hhole _ ih =>
    obtain ⟨grow, hgrow⟩ := ih
    refine ⟨fun i => (grow i).prependKey key, fun s hs => ?_⟩
    have hmore := @settles_readHole (rest ++ s) _ _ _ hhole
    rw [List.cons_append, List.cons_append, List.append_assoc, readTemplateBody_hole hmore,
      List.nil_append, hgrow s hs]
    cases readTemplateBody s <;> rfl

/-- What stands behind a backslash is a letter, or the letter `u` and a code point. -/
theorem TemplateText.of_readEscape (hread : readEscape s = .ok (c, rest)) (hrest : rest ≠ [])
    {text tail : List Char} (htext : TemplateText text) (hsplit : rest = text ++ tail) :
    ∃ longer, TemplateText longer ∧ '\\' :: s = longer ++ tail := by
  cases s with
  | nil => simp [readEscape, stopAtEnd] at hread
  | cons letter s =>
    by_cases hletter : letter = 'u'
    · subst hletter
      have hcode : readCodePoint s = .ok (c, rest) := by simpa [readEscape] using hread
      obtain ⟨written, hwritten, rfl⟩ := exists_unicodeEscape hcode hrest
      exact ⟨_, TemplateText.unicode hwritten htext, by simp [hsplit]⟩
    · obtain ⟨meant, hmeant⟩ := exists_readEscape hletter
      rw [hmeant, Except.ok.injEq, Prod.mk.injEq] at hread
      exact ⟨_, TemplateText.letter hletter htext, by simp [hread.2, hsplit]⟩

/-- What the reader accepts is the text of a template literal and a backtick. -/
theorem exists_templateText {i : Interpolation} (hread : readTemplateBody s = .ok (i, rest)) :
    ∃ text, TemplateText text ∧ s = text ++ '\x60' :: rest := by
  induction hlength : s.length using Nat.strongRecOn generalizing s i with
  | ind length ih =>
    cases s with
    | nil => exact (ne_nil_of_readTemplateBody hread rfl).elim
    | cons c s =>
      rw [List.length_cons] at hlength
      by_cases hbacktick : c = '\x60'
      · subst hbacktick
        rw [readTemplateBody_backtick, Except.ok.injEq, Prod.mk.injEq] at hread
        exact ⟨[], TemplateText.nil, by rw [hread.2, List.nil_append]⟩
      by_cases hbackslash : c = '\\'
      · subst hbackslash
        rw [readTemplateBody_backslash] at hread
        obtain ⟨⟨meant, behind⟩, hescape, hread⟩ := ok_of_bind hread
        obtain ⟨others, hbody, -⟩ := ok_of_map_fst hread
        have hshorter := length_of_readEscape hescape
        obtain ⟨text, htext, hsplit⟩ := ih behind.length (by omega) hbody rfl
        exact TemplateText.of_readEscape hescape (ne_nil_of_readTemplateBody hbody) htext hsplit
      by_cases hdollar : c = '$' ∧ s.head? = some '{'
      · obtain ⟨rfl, hhead⟩ := hdollar
        obtain ⟨s, rfl⟩ := List.head?_eq_some_iff.mp hhead
        rw [readTemplateBody_dollar] at hread
        obtain ⟨⟨key, behind⟩, hhole, hread⟩ := ok_of_bind hread
        obtain ⟨others, hbody, -⟩ := ok_of_map_fst hread
        have hshorter := length_of_readHole hhole
        rw [List.length_cons] at hlength
        obtain ⟨text, htext, hsplit⟩ := ih behind.length (by omega) hbody rfl
        obtain ⟨hole, rfl, halone⟩ := forgets_readHole hhole
        exact ⟨_, TemplateText.hole halone htext, by simpa using hsplit⟩
      · rw [readTemplateBody_plain hbacktick hbackslash hdollar] at hread
        obtain ⟨others, hbody, -⟩ := ok_of_map_fst hread
        obtain ⟨text, htext, rfl⟩ := ih s.length (by omega) hbody rfl
        have hnext : ¬(c = '$' ∧ text.head? = some '{') := by
          rintro ⟨rfl, hhead⟩
          refine hdollar ⟨rfl, ?_⟩
          rw [List.head?_append, hhead]
          rfl
        exact ⟨c :: text, TemplateText.plain hbacktick hbackslash hnext htext, rfl⟩

/-- The reader accepts a text up to a backtick exactly when it is the text of a template
literal. -/
theorem exists_readTemplateBody_iff :
    (∃ i, readTemplateBody s = .ok (i, rest)) ↔
      ∃ text, TemplateText text ∧ s = text ++ '\x60' :: rest := by
  constructor
  · rintro ⟨i, hread⟩
    exact exists_templateText hread
  · rintro ⟨text, htext, rfl⟩
    obtain ⟨grow, hgrow⟩ := htext.exists_read
    refine ⟨grow (Interpolation.ofText ""), ?_⟩
    rw [hgrow _ (by simp), readTemplateBody_backtick]
    rfl

/-! ## Places in template literals -/

/-- A function up to the backtick that opens its template literal, with white space
wherever it may stand. -/
def functionHead (param before behind opening : List Char) : List Char :=
  param ++ (before ++ '=' :: '>' :: (behind ++ (param ++ (opening ++ ['\x60']))))

/-- Reading a function is reading its template literal. -/
theorem readTree_functionHead {param before behind opening : List Char}
    (hparam : IsParameter param) (hbefore : ∀ c ∈ before, isBlank c = true)
    (hbehind : ∀ c ∈ behind, isBlank c = true) (hopening : ∀ c ∈ opening, isBlank c = true)
    (s : List Char) :
    readTree (functionHead param before behind opening ++ s) =
      (readTemplateBody s).map fun read =>
        (.cases (.single (.interpolated read.1)), read.2) := by
  have hfunction := readFunction_append hparam.word hbefore hbehind hopening s
  have hword : readWordValue (functionHead param before behind opening ++ s) =
      (readTemplateBody s).map fun read =>
        (.cases (.single (.interpolated read.1)), read.2) := by
    have hspace := isWordChar_head_of_blank hbefore (c := '=') (by decide)
    rw [← hfunction, ← readWordValue_parameter hparam (hspace _)]
    simp [functionHead]
  obtain ⟨⟨first, hfirst, hstart⟩, -⟩ := hparam.word
  obtain ⟨others, rfl⟩ := List.head?_eq_some_iff.mp hfirst
  rw [readTree_eq, ← hword]
  exact readValueWith_word hstart

/-- What stands in front of a place in a template literal: the place of a value, a
function up to the opening backtick, and text. -/
inductive InTemplate : List Char → Prop
  | intro {place param before behind opening text : List Char} (hplace : Leads place)
      (hparam : IsParameter param)
      (hplain : (∀ c ∈ place, isBlank c = true) → ¬"export".toList <+: param)
      (hbefore : ∀ c ∈ before, isBlank c = true) (hbehind : ∀ c ∈ behind, isBlank c = true)
      (hopening : ∀ c ∈ opening, isBlank c = true) (htext : TemplateText text) :
      InTemplate (place ++ functionHead param before behind opening ++ text)

/-- Reading a source is reading the rest of a template literal from a place in it, and
going on with the outcome. -/
theorem InTemplate.exists_readSource {front : List Char} (hfront : InTemplate front) :
    ∃ next, ∀ s, s.head? ≠ some '{' → readSource (front ++ s) = readTemplateBody s >>= next := by
  obtain ⟨hplace, hparam, hplain, hbefore, hbehind, hopening, htext⟩ := hfront
  rename_i place param before behind opening text
  obtain ⟨next, hnext⟩ := exists_readSource_of_leads hplace
  obtain ⟨grow, hgrow⟩ := htext.exists_read
  refine ⟨fun read => next (.cases (.single (.interpolated (grow read.1))), read.2), ?_⟩
  intro s hs
  have hopens : Opens place (functionHead param before behind opening ++ (text ++ s)) := by
    have hspace := isWordChar_head_of_blank hbefore (c := '=') (by decide)
      ('>' :: (behind ++ (param ++ (opening ++ '\x60' :: (text ++ s)))))
    have hword := opens_word hparam.word hplain hspace
    simpa [functionHead] using hword
  rw [List.append_assoc, List.append_assoc, hnext _ hopens,
    readTree_functionHead hparam hbefore hbehind hopening, hgrow s hs]
  cases readTemplateBody s <;> rfl

/-! ## Escapes of code points -/

/-- A character written so that it stands for itself, whatever is around it. -/
def spelled (c : Char) : List Char :=
  if c = '\x60' ∨ c = '\\' ∨ c = '$' ∨ c = '{' then ['\\', c] else [c]

theorem head?_spelled (c : Char) (rest : List Char) :
    (spelled c ++ rest).head? ≠ some '{' := by
  unfold spelled
  split
  · simp
  · rename_i hplain
    simp only [not_or] at hplain
    simpa using hplain.2.2.2

theorem readTemplateBody_spelled (c : Char) (rest : List Char) :
    readTemplateBody (spelled c ++ rest) =
      (readTemplateBody rest).map fun read => (pushChar c read.1, read.2) := by
  unfold spelled
  split
  · rename_i hescaped
    refine readTemplateBody_escape ?_
    rcases hescaped with rfl | rfl | rfl | rfl <;> simp [readEscape]
  · rename_i hplain
    simp only [not_or] at hplain
    exact readTemplateBody_plain hplain.1 hplain.2.1 fun hdollar => hplain.2.2.1 hdollar.1

/-- Where no code point follows, the template literal is refused. -/
theorem readTemplateBody_no_unicode
    (hs : ∀ written c, UnicodeEscape written c → ¬written <+: s)
    (result : Interpolation × List Char) : readTemplateBody ('\\' :: 'u' :: s) ≠ .ok result := by
  intro hread
  rw [readTemplateBody_backslash] at hread
  obtain ⟨⟨c, rest⟩, hescape, hread⟩ := ok_of_bind hread
  obtain ⟨read, hbody, -⟩ := ok_of_map hread
  have hcode : readCodePoint s = .ok (c, rest) := by simpa [readEscape] using hescape
  obtain ⟨written, hwritten, rfl⟩ :=
    exists_unicodeEscape hcode (ne_nil_of_readTemplateBody hbody)
  exact hs written c hwritten (List.prefix_append written rest)

end Phrasebook.Script

namespace Phrasebook

open Script Text

/-- At any place in a template literal, an escape of a code point is accepted as its
character, and reading goes on right behind it: the source is read as if the character
itself stood there.  Anything else behind the letter `u` makes the whole source
invalid. -/
theorem unicodeEscapes_accepted {front : List Char} (hfront : InTemplate front)
    (s : List Char) :
    (∀ written c rest, UnicodeEscape written c → s = written ++ rest →
      (readTemplateBody ('\\' :: 'u' :: s) =
        (readTemplateBody rest).map fun read => (pushChar c read.1, read.2)) ∧
      ∀ tree, Tree.ofSource (String.ofList (front ++ '\\' :: 'u' :: s)) = .ok tree ↔
        Tree.ofSource (String.ofList (front ++ spelled c ++ rest)) = .ok tree) ∧
    ((∀ written c, UnicodeEscape written c → ¬written <+: s) →
      ∃ error, Tree.ofSource (String.ofList (front ++ '\\' :: 'u' :: s)) = .error error) := by
  obtain ⟨next, hnext⟩ := hfront.exists_readSource
  constructor
  · rintro written c rest hwritten rfl
    refine ⟨readTemplateBody_unicode hwritten rest, fun tree => ?_⟩
    have hsame : readSource (front ++ '\\' :: 'u' :: (written ++ rest)) =
        readSource (front ++ spelled c ++ rest) := by
      rw [List.append_assoc, hnext _ (by simp), hnext _ (head?_spelled c rest),
        readTemplateBody_unicode hwritten, readTemplateBody_spelled]
    rw [ofSource_eq_ok_iff, ofSource_eq_ok_iff, String.toList_ofList, String.toList_ofList, hsame]
  · intro hnone
    refine exists_error_of_ne_ok fun tree hread => ?_
    rw [String.toList_ofList, hnext _ (by simp)] at hread
    obtain ⟨result, hbody, -⟩ := ok_of_bind hread
    exact readTemplateBody_no_unicode hnone result hbody

/-- Behind an opening backtick a letter may be written by its code point, and four other
letters are no code point. -/
theorem unicodeEscapes_accepted_letter :
    Tree.ofSource "i => i\x60\\u0041\x60" =
        .ok (.cases (.single (.interpolated (Interpolation.ofText "A")))) ∧
      ∃ error, Tree.ofSource "i => i\x60\\uwxyz\x60" = .error error := by
  have hplace : InTemplate "i => i\x60".toList :=
    @InTemplate.intro [] rendererName.toList [' '] [' '] [] [] Leads.start
      isParameter_rendererName (fun _ => by decide) (by simp) (by simp) (by simp)
      TemplateText.nil
  constructor
  · have hletter : UnicodeEscape "0041".toList 'A' :=
      UnicodeEscape.four rfl (hexValue?_eq_some_iff.mp (by decide))
    have hsame := (unicodeEscapes_accepted hplace "0041\x60".toList).1 _ _ ['\x60'] hletter rfl
    exact (hsame.2 _).mpr (by decide +kernel)
  · refine (unicodeEscapes_accepted hplace "wxyz\x60".toList).2 ?_
    rintro written c hwritten ⟨rest, hrest⟩
    obtain ⟨first, hfirst, hkind⟩ := hwritten.exists_head
    obtain ⟨others, rfl⟩ := List.head?_eq_some_iff.mp hfirst
    obtain rfl : first = 'w' := (List.cons.inj hrest).1
    revert hkind
    decide

/-- A plus sign is no digit, but three digits behind it are read like four. -/
theorem ofSource_signed_escape :
    Tree.ofSource "i => i\x60\\u+041\x60" =
        .ok (.cases (.single (.interpolated (Interpolation.ofText "A")))) ∧
      ∀ value, ¬IsHexDigit '+' value := by
  refine ⟨by decide +kernel, fun value hdigit => ?_⟩
  have hread := hexDigit?_eq_some_iff.mpr hdigit
  rw [show hexDigit? '+' = none by decide] at hread
  cases hread

end Phrasebook

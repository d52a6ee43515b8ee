import Mathlib.Data.List.Infix
import Phrasebook.Proofs.Text.Boundaries
import Phrasebook.Script.Reader

/-!
# Places of faults in compiled sources

A reader only ever drops whole characters from the front of the text, so what it has
left is a rest of that text, and a fault is reported in front of such a rest or at the
end.  One place is counted in bytes instead: a code point without braces takes the next
four bytes as they come, and when they end inside a character, so does the report.

Main results:

- Definition `StopsIn`: the places of a text where reading can stop.
- Definition `StaysIn`: a result with a rest of the text behind it, or a stop in it.
- Theorem `staysIn_readTemplateBody`: template literals stay in the text.
- Theorem `staysIn_readValue`: values of any depth do.
- Theorem `ofSource_error_offset`: a fault lies in the source, and on a boundary of it unless
  the four bytes behind `\u` end inside a character.
-/

namespace Phrasebook.Script

open Text

variable {α β : Type} {text s rest : List Char}

/-! ## Stops and results in a text -/

/-- The places of a text where reading can stop. -/
inductive StopsIn (text : List Char) : Stop Fault → Prop
  /-- In front of a character of the text, or at its end. -/
  | before {cause : Fault} {rest : List Char} (hrest : rest <:+ text) :
      StopsIn text ⟨cause, byteLength rest⟩
  /-- Four bytes behind `\u`, when these bytes are no whole characters. -/
  | inside {digits : List Char} (hdigits : '\\' :: 'u' :: digits <:+ text)
      (hcut : takeBytes 4 digits = none) :
      StopsIn text ⟨.invalidUnicodeEscape, byteLength digits - 4⟩

/-- Reading `text` gave a value with a rest of the text behind it, or stopped in it. -/
def StaysIn (text : List Char) (left : α → List Char) : Except (Stop Fault) α → Prop
  | .ok value => left value <:+ text
  | .error stop => StopsIn text stop

variable {left : α → List Char} {next : β → List Char}

theorem staysIn_stopBefore {cause : Fault} (hrest : rest <:+ text) :
    StaysIn text left (stopBefore cause rest) :=
  StopsIn.before hrest

theorem staysIn_stopAtEnd {cause : Fault} : StaysIn text left (stopAtEnd cause) :=
  StopsIn.before (List.nil_suffix (l := text))

/-- Two steps stay in the text when the second does from wherever the first one ends. -/
theorem StaysIn.bind {first : Except (Stop Fault) α} {step : α → Except (Stop Fault) β}
    (hfirst : StaysIn text left first)
    (hstep : ∀ value, left value <:+ text → StaysIn text next (step value)) :
    StaysIn text next (first >>= step) := by
  cases first with
  | error stop => exact hfirst
  | ok value => exact hstep value hfirst

/-- What is made of a value does not matter as long as the rest stays the same. -/
theorem StaysIn.map {first : Except (Stop Fault) α} {make : α → β}
    (hfirst : StaysIn text left first) (hmake : ∀ value, next (make value) = left value) :
    StaysIn text next (first.map make) := by
  cases first with
  | error stop => exact hfirst
  | ok value =>
    change next (make value) <:+ text
    rw [hmake]
    exact hfirst

/-! ## Characters, words and literals -/

theorem suffix_of_cons {c : Char} (hs : c :: s <:+ text) : s <:+ text :=
  (List.suffix_cons c s).trans hs

theorem trimStart_suffix (hs : s <:+ text) : trimStart s <:+ text :=
  (List.dropWhile_suffix isBlank).trans hs

theorem wordRun_suffix (hs : s <:+ text) : (wordRun s).2 <:+ text :=
  (List.dropWhile_suffix isWordChar).trans hs

theorem staysIn_expect (c : Char) (hs : s <:+ text) : StaysIn text id (expect c s) := by
  cases s with
  | nil => exact staysIn_stopAtEnd
  | cons first s =>
    simp only [expect]
    split
    · exact suffix_of_cons hs
    · exact staysIn_stopBefore hs

/-- A fault in a string literal counts for its opening quote, or for the end of the text
when there is no closing one. -/
theorem staysIn_readString (hs : s <:+ text) : StaysIn text Prod.snd (readString s) := by
  cases s with
  | nil => exact staysIn_stopAtEnd
  | cons quote s =>
    simp only [readString]
    split
    · exact staysIn_stopAtEnd
    · rename_i inner rest hclosed
      split
      · exact suffix_of_cons ((suffix_of_closeString? hclosed).trans (suffix_of_cons hs))
      · exact staysIn_stopBefore hs

/-- A fault in a number literal counts for its first character. -/
theorem staysIn_readNumber (hs : s <:+ text) : StaysIn text Prod.snd (readNumber s) := by
  simp only [readNumber]
  split
  · exact (List.dropWhile_suffix isNumberChar).trans hs
  · exact staysIn_stopBefore hs

/-! ## Template literals -/

/-- Four bytes behind `\u` that are whole characters are a rest of the text; otherwise
reading stops inside of one. -/
theorem staysIn_readCodePoint (hs : '\\' :: 'u' :: s <:+ text) :
    StaysIn text Prod.snd (readCodePoint s) := by
  have hdigits : s <:+ text := suffix_of_cons (suffix_of_cons hs)
  unfold readCodePoint
  split
  · rename_i s
    have hbehind := (List.dropWhile_suffix fun c => (hexDigit? c).isSome).trans
      (suffix_of_cons hdigits)
    refine (staysIn_expect '}' hbehind).bind fun rest hrest => ?_
    split
    · exact hrest
    · exact staysIn_stopBefore hrest
  · split
    · rename_i digits rest htaken
      have hrest := (suffix_of_takeBytes htaken).trans hdigits
      split
      · exact hrest
      · exact staysIn_stopBefore hrest
    · rename_i hcut
      exact StopsIn.inside hs hcut

theorem staysIn_readEscape (hs : '\\' :: s <:+ text) :
    StaysIn text Prod.snd (readEscape s) := by
  cases s with
  | nil => exact staysIn_stopAtEnd
  | cons c s =>
    have hrest : s <:+ text := suffix_of_cons (suffix_of_cons hs)
    by_cases hunicode : c = 'u'
    · subst hunicode
      exact staysIn_readCodePoint hs
    · simp only [readEscape, if_neg hunicode]
      -- Every other escape is one character, which is dropped.
      repeat' split
      all_goals exact hrest

theorem staysIn_readKey (hs : s <:+ text) : StaysIn text Prod.snd (readKey s) := by
  cases s with
  | nil => exact staysIn_stopAtEnd
  | cons c s =>
    have hrun : (Json.digitRun (c :: s)).2 <:+ text := (List.dropWhile_suffix _).trans hs
    simp only [readKey]
    split
    · exact (staysIn_readString hs).map fun _ => rfl
    split
    · split
      · exact hrun
      · exact staysIn_stopBefore hrun
    · exact staysIn_stopBefore hs

theorem staysIn_readHole (hs : s <:+ text) : StaysIn text Prod.snd (readHole s) := by
  refine (staysIn_readKey (trimStart_suffix hs)).bind fun ⟨key, rest⟩ hrest => ?_
  exact (staysIn_expect '}' (trimStart_suffix hrest)).bind fun _ hbehind => hbehind

/-- Template literals stay in the text: each step drops a character, an escape or a
hole. -/
theorem staysIn_readTemplateBody (hs : s <:+ text) :
    StaysIn text Prod.snd (readTemplateBody s) := by
  fun_induction readTemplateBody s with
  | case1 => exact staysIn_stopAtEnd
  | case2 s => exact suffix_of_cons hs
  | case3 s stop hread =>
    have hescape := staysIn_readEscape hs
    rw [hread] at hescape
    exact hescape
  | case4 s meant rest hread hshorter hbacktick ih =>
    have hescape := staysIn_readEscape hs
    rw [hread] at hescape
    exact (ih hescape).map fun _ => rfl
  | case5 c s hbacktick hbackslash hdollar stop hread =>
    have hhole := staysIn_readHole ((List.tail_suffix s).trans (suffix_of_cons hs))
    rw [hread] at hhole
    exact hhole
  | case6 c s hbacktick hbackslash hdollar key rest hread hshorter ih =>
    have hhole := staysIn_readHole ((List.tail_suffix s).trans (suffix_of_cons hs))
    rw [hread] at hhole
    exact (ih hhole).map fun _ => rfl
  | case7 c s hbacktick hbackslash hdollar ih =>
    exact (ih (suffix_of_cons hs)).map fun _ => rfl

theorem staysIn_readTemplate (hs : s <:+ text) : StaysIn text Prod.snd (readTemplate s) :=
  (staysIn_expect '\x60' hs).bind fun _ hrest => staysIn_readTemplateBody hrest

/-! ## Functions, arrays and objects -/

theorem staysIn_readFunction (param : List Char) (hs : s <:+ text) :
    StaysIn text Prod.snd (readFunction param s) := by
  refine (staysIn_expect '=' (trimStart_suffix hs)).bind fun afterEq hafterEq => ?_
  refine (staysIn_expect '>' hafterEq).bind fun afterArrow hafterArrow => ?_
  have hcall := trimStart_suffix hafterArrow
  dsimp only [id]
  split
  · exact staysIn_stopAtEnd
  split
  · exact staysIn_stopBefore hcall
  split
  · exact staysIn_stopBefore hcall
  · exact staysIn_readTemplate (trimStart_suffix (wordRun_suffix hcall))

/-- Items stay in the text when each of them does. -/
theorem staysIn_readItems (close : Char) {item : Reader Fault α}
    (hitem : ∀ s, s <:+ text → StaysIn text Prod.snd (item s)) (budget : Nat)
    (hs : s <:+ text) : StaysIn text Prod.snd (readItems close item budget s) := by
  induction budget generalizing s with
  | zero => exact staysIn_stopAtEnd
  | succ budget ih =>
    have hstart := trimStart_suffix hs
    simp only [readItems]
    split
    · exact (List.tail_suffix _).trans hstart
    refine (hitem _ hstart).bind fun ⟨first, rest⟩ hrest => ?_
    have hbehind := trimStart_suffix hrest
    dsimp only at hbehind ⊢
    split
    · rename_i rest hcomma
      rw [hcomma] at hbehind
      exact (ih (suffix_of_cons hbehind)).bind fun _ hothers => hothers
    · exact (staysIn_expect close hbehind).bind fun _ hend => hend

theorem staysIn_readName (hs : s <:+ text) : StaysIn text Prod.snd (readName s) := by
  cases s with
  | nil => exact staysIn_stopAtEnd
  | cons c s =>
    simp only [readName]
    split
    · exact staysIn_readString hs
    split
    · exact wordRun_suffix hs
    · exact staysIn_stopBefore hs

theorem staysIn_readEntry {item : Reader Fault α}
    (hitem : ∀ s, s <:+ text → StaysIn text Prod.snd (item s)) (hs : s <:+ text) :
    StaysIn text Prod.snd (readEntry item s) := by
  refine (staysIn_readName hs).bind fun ⟨name, rest⟩ hrest => ?_
  refine (staysIn_expect ':' (trimStart_suffix hrest)).bind fun behind hbehind => ?_
  exact (hitem behind hbehind).bind fun _ hvalue => hvalue

/-! ## Values -/

theorem staysIn_readWordValue (hs : s <:+ text) :
    StaysIn text Prod.snd (readWordValue s) := by
  have hrest := wordRun_suffix hs
  simp only [readWordValue]
  split
  · exact hrest
  split
  · exact hrest
  split
  · exact hrest
  · exact (staysIn_readFunction _ hrest).map fun _ => rfl

/-- A value stays in the text when its items do. -/
theorem staysIn_readValueWith {item : Reader Fault (Tree Phrase)}
    (hitem : ∀ s, s <:+ text → StaysIn text Prod.snd (item s)) (hs : s <:+ text) :
    StaysIn text Prod.snd (readValueWith item s) := by
  have hstart := trimStart_suffix hs
  unfold readValueWith
  split
  · exact staysIn_stopAtEnd
  rename_i c rest hcons
  rw [hcons] at hstart
  have hrest := suffix_of_cons hstart
  split
  · exact (staysIn_readString hstart).map fun _ => rfl
  split
  · exact (staysIn_readItems ']' hitem _ hrest).map fun _ => rfl
  split
  · exact (staysIn_readItems '}' (fun _ => staysIn_readEntry hitem) _ hrest).map fun _ => rfl
  split
  · exact (staysIn_readNumber hstart).map fun _ => rfl
  split
  · exact staysIn_readWordValue hstart
  · exact staysIn_stopBefore hstart

/-- Values of any depth stay in the text. -/
theorem staysIn_readValue (depth : Nat) (hs : s <:+ text) :
    StaysIn text Prod.snd (readValue depth s) := by
  induction depth generalizing s with
  | zero => exact staysIn_stopAtEnd
  | succ depth ih => exact staysIn_readValueWith (fun _ hitem => ih hitem) hs

/-! ## Modules -/

/-- What stands behind a word that was found in front is a rest of the text. -/
theorem suffix_of_isPrefixOf? {word : List Char}
    (hword : List.isPrefixOf? word s = some rest) : rest <:+ s := by
  rw [List.isPrefixOf?_eq_some_iff_append_eq] at hword
  exact ⟨word, hword⟩

theorem staysIn_readHeader (text : List Char) : StaysIn text id (readHeader text) := by
  unfold readHeader
  split
  · exact List.suffix_rfl
  rename_i rest hexport
  have hstart := trimStart_suffix
    ((suffix_of_isPrefixOf? hexport).trans (trimStart_suffix List.suffix_rfl))
  split
  · exact staysIn_stopBefore hstart
  · rename_i rest hdefault
    exact (suffix_of_isPrefixOf? hdefault).trans hstart

/-- A fault behind the value counts for the first character that may not stand there. -/
theorem staysIn_readFooter (hs : s <:+ text) :
    StaysIn text (fun _ => []) (readFooter s) := by
  have hstart := trimStart_suffix hs
  simp only [readFooter]
  split
  · exact List.nil_suffix
  · refine staysIn_stopBefore (trimStart_suffix ?_)
    split
    · rename_i rest hsemicolon
      rw [hsemicolon] at hstart
      exact suffix_of_cons hstart
    · exact hstart

/-- Reading a whole source stops nowhere but in the source. -/
theorem stopsIn_of_readSource {stop : Stop Fault} (hread : readSource text = .error stop) :
    StopsIn text stop := by
  have hsource : StaysIn text (fun _ => []) (readSource text) := by
    refine (staysIn_readHeader text).bind fun rest hrest => ?_
    refine (staysIn_readValue (text.length + 1) hrest).bind fun ⟨tree, rest⟩ hrest => ?_
    exact (staysIn_readFooter hrest).bind fun _ hend => hend
  rw [hread] at hsource
  exact hsource

/-- A stop in a text is a boundary of it, or is four bytes behind `\u` where no boundary
of the text behind it is. -/
theorem StopsIn.isValid_or_inside {stop : Stop Fault} (hstop : StopsIn text stop) :
    String.Pos.Raw.IsValid (String.ofList text) ⟨stop.offset text⟩ ∨
      stop.cause = .invalidUnicodeEscape ∧
        ∃ front digits, text = front ++ '\\' :: 'u' :: digits ∧
          stop.offset text = byteLength front + byteLength ['\\', 'u'] + 4 ∧
          ¬String.Pos.Raw.IsValid (String.ofList digits) ⟨4⟩ := by
  cases hstop with
  | before hrest =>
    obtain ⟨front, rfl⟩ := hrest
    left
    rw [isValid_ofList_iff]
    exact ⟨front, _, rfl, by simp [Stop.offset]⟩
  | @inside digits hdigits hcut =>
    obtain ⟨front, rfl⟩ := hdigits
    obtain ⟨hlong, hinside⟩ := takeBytes_eq_none_iff.mp hcut
    refine Or.inr ⟨rfl, front, digits, rfl, ?_, hinside⟩
    simp only [Stop.offset, byteLength_append, byteLength_cons, byteLength_nil]
    omega

end Phrasebook.Script

namespace Phrasebook

open Text

/-- A fault of a source lies in it, and on a boundary between characters with one
exception: four bytes are read behind `\u` without a brace, and a report about them
stands inside a character when they end in one. -/
theorem ofSource_error_offset {source : String} {error : SourceError}
    (hread : Tree.ofSource source = .error error) :
    error.offset ≤ source.utf8ByteSize ∧
      (¬String.Pos.Raw.IsValid source ⟨error.offset⟩ ↔
        error.fault = .invalidUnicodeEscape ∧
          ∃ front back, source = front ++ "\\u" ++ back ∧
            error.offset = (front ++ "\\u").utf8ByteSize + 4 ∧
            ¬String.Pos.Raw.IsValid back ⟨4⟩) := by
  obtain ⟨stop, hstop, rfl⟩ : ∃ stop, Script.readSource source.toList = .error stop ∧
      ⟨stop.cause, stop.offset source.toList⟩ = error := by
    unfold Tree.ofSource at hread
    split at hread
    · simp at hread
    · rename_i stop hstop
      exact ⟨stop, hstop, by simpa using hread⟩
  refine ⟨byteLength_toList source ▸ stop.offset_le source.toList, ?_, ?_⟩
  · intro hinside
    rcases (Script.stopsIn_of_readSource hstop).isValid_or_inside with
      hvalid | ⟨hcause, front, digits, htext, hoffset, hcut⟩
    · rw [String.ofList_toList] at hvalid
      exact absurd hvalid hinside
    · refine ⟨hcause, String.ofList front, String.ofList digits, ?_, ?_, hcut⟩
      · simp [← String.toList_inj, htext]
      · rw [String.utf8ByteSize_append, utf8ByteSize_ofList]
        exact hoffset
  · rintro ⟨-, front, back, rfl, hoffset, hcut⟩ hvalid
    rw [hoffset] at hvalid
    exact hcut ((isValid_append_iff (front ++ "\\u") back 4).mp hvalid)

/-- An array that is never closed is refused at its end. -/
theorem ofSource_error_offset_unclosed :
    Tree.ofSource "[\"€\"" = .error ⟨.expectedChar ']', 6⟩ ∧
      6 ≤ "[\"€\"".utf8ByteSize ∧ String.Pos.Raw.IsValid "[\"€\"" ⟨6⟩ := by
  have hread : Tree.ofSource "[\"€\"" = .error ⟨.expectedChar ']', 6⟩ := by decide +kernel
  obtain ⟨hend, hinside⟩ := ofSource_error_offset hread
  refine ⟨hread, hend, by_contra fun hcut => ?_⟩
  exact absurd (hinside.mp hcut).1 (by decide)

/-- Two characters of three bytes behind `\u` are refused in the middle of the second. -/
theorem ofSource_error_inside :
    Tree.ofSource "i => i\x60\\u€€\x60" = .error ⟨.invalidUnicodeEscape, 13⟩ ∧
      ¬String.Pos.Raw.IsValid "i => i\x60\\u€€\x60" ⟨13⟩ := by
  decide +kernel

end Phrasebook

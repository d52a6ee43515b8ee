import Phrasebook.Proofs.Compile.Warnings
import Phrasebook.Proofs.Render.Meaning
import Phrasebook.Proofs.Template.Cases

/-!
# Fixed phrases

A message becomes a fixed text in two ways: it is exactly one piece of text, or it is several
pieces of which none is a placeholder.  Both ways come to the same: a case of a template is a
fixed text when no placeholder stands in it, and only then.  The text is what the case says
without the white space at its ends, with the content of each literal token in its place and
a bar for each escaped bar outside of tokens.

Main results:

- Definition `plainText`: the text that atoms without placeholders stand for.
- Theorem `toList_textIn_messageOf`: in every context it is the text of their message.
- Theorems `plan_eq_fixed_iff` and `compile_eq_quote_iff`: the messages that both backends
  make a fixed text.
- Theorem `fixed_iff_keyless`: the templates and the cases that become a fixed text, and the
  text that they become.
-/

namespace Phrasebook

open Script

namespace Template

open Text

/-! ## The text of atoms without placeholders -/

/-- The key that an atom asks for, when it is a placeholder. -/
def Atom.key? (atom : Atom) : Option Key :=
  atom.item?.bind Item.key?

/-- None of these atoms is a placeholder. -/
def Keyless (atoms : List Atom) : Prop :=
  ∀ atom ∈ atoms, atom.key? = none

/-- What a literal token holds. -/
def Token.content (token : Token) : List Char :=
  (token.item.text?.getD "").toList

/-- The text that atoms stand for when none of them is a placeholder: literal tokens stand
for what they hold, and an escaped bar for a bar. -/
def plainText : List Atom → List Char
  | .char '\\' :: .char '|' :: atoms => '|' :: plainText atoms
  | .char c :: atoms => c :: plainText atoms
  | .token t :: atoms => t.content ++ plainText atoms
  | [] => []

/-- A run stands for its own text when the character behind it, if there is one, belongs to
a token: a bar there would be escaped by a backslash that ends the run. -/
theorem plainText_run_append {rest : List Atom} (hrest : ∀ c others, rest ≠ .char c :: others)
    (run : List Char) :
    plainText (run.map .char ++ rest) = runText run ++ plainText rest := by
  rw [← unescapeBars_eq_runText]
  induction run using unescapeBars.induct with
  | case1 run ih => simp [unescapeBars, plainText, ih]
  | case2 c run hescape ih =>
    rw [unescapeBars.eq_2 c run hescape, List.map_cons, List.cons_append, plainText.eq_2, ih]
    · rfl
    · intro others hbar hc
      cases run with
      | nil => exact hrest '|' others hbar
      | cons d run =>
        simp only [List.map_cons, List.cons_append, List.cons.injEq, Atom.char.injEq] at hbar
        exact hescape run hc (by rw [hbar.1])
  | case3 => rfl

/-! ## The text of their message -/

section

variable (context : Context)

/-- A token that is no placeholder contributes what it holds. -/
theorem toList_value_token {token : Token} (hkey : token.item.key? = none) :
    (token.item.value context).toList = token.content := by
  unfold Token.content
  cases hitem : token.item with
  | placeholder key => simp [hitem, Item.key?] at hkey
  | _ => rfl

/-- A run contributes its text. -/
theorem toList_join_runItems (run : List Char) :
    (String.join ((runItems run).map (Item.value context))).toList = runText run := by
  unfold runItems
  split
  · rename_i hrun
    rw [hrun]
    rfl
  · simp [Item.value]

/-- The items of atoms without placeholders contribute the text of the atoms. -/
theorem toList_join_itemsOf {atoms : List Atom} (hatoms : Keyless atoms) (run : List Char) :
    (String.join ((itemsOf run atoms).map (Item.value context))).toList =
      plainText (run.map .char ++ atoms) := by
  -- A character joins the run that is being read; a token ends it, and a new one begins.
  induction atoms generalizing run with
  | nil =>
    rw [plainText_run_append (by simp), itemsOf, toList_join_runItems]
    exact (List.append_nil _).symm
  | cons atom atoms ih =>
    obtain ⟨hatom, hrest⟩ := List.forall_mem_cons.mp hatoms
    cases atom with
    | char c => rw [itemsOf, ih hrest, List.map_append, List.append_assoc]; rfl
    | token token =>
      have hbehind := ih hrest []
      rw [plainText_run_append (by simp), itemsOf, List.map_append, String.join_append,
        String.toList_append, toList_join_runItems, List.map_cons, String.join_cons,
        String.toList_append, toList_value_token context hatom, hbehind]
      rfl

/-- White space at the ends is no placeholder. -/
theorem Keyless.trimAtoms {atoms : List Atom} (hatoms : Keyless atoms) :
    Keyless (trimAtoms atoms) :=
  fun atom hatom => hatoms atom ((trimAtoms_isInfix atoms).subset hatom)

/-- The message of a case without placeholders has the text of the case in every
context. -/
theorem toList_textIn_messageOf {segment : List Atom} (hsegment : Keyless segment) :
    ((messageOf segment).textIn context).toList = plainText (trimAtoms segment) := by
  have hitems := toList_join_itemsOf context hsegment.trimAtoms []
  rw [List.map_nil, List.nil_append] at hitems
  rw [← hitems, Message.textIn, messageOf]
  split
  · rename_i hnil
    rw [hnil]
    rfl
  · rfl

end

/-- The placeholders of a message are those of its case. -/
theorem filterMap_key?_messageOf (segment : List Atom) :
    (messageOf segment).items.filterMap Item.key? = segment.filterMap Atom.key? := by
  have htokens : (messageOf segment).tokens.filterMap Item.key? =
      (messageOf segment).items.filterMap Item.key? := by
    rw [Message.tokens, List.filterMap_filter]
    refine List.filterMap_congr fun item _ => ?_
    cases item <;> rfl
  rw [← htokens, tokens_messageOf, List.filterMap_filterMap]
  rfl

end Template

/-! ## Messages that become a fixed text -/

section

variable {message : Message} {text : String}

/-- In memory the outlines that are fixed texts become a fixed text. -/
theorem emitOutline_eq_fixed_iff {outline : Outline} :
    treeBackend.emitOutline outline = .fixed text ↔ outline = .fixed text := by
  cases outline <;> simp [Backend.emitOutline, treeBackend]

/-- A message becomes a fixed text in memory when it has no placeholders, and that text is
what it says in any context. -/
theorem plan_eq_fixed_iff (context : Context) :
    message.plan.result = .fixed text ↔
      message.items.filterMap Item.key? = [] ∧ message.textIn context = text := by
  have hvalue := message.evaluate_plan context
  rw [← Message.exists_outline_fixed_iff]
  constructor
  · intro hfixed
    rw [hfixed] at hvalue
    exact ⟨⟨text, emitOutline_eq_fixed_iff.mp hfixed⟩, hvalue.symm⟩
  · rintro ⟨⟨found, hfound⟩, rfl⟩
    have hfixed : message.plan.result = .fixed found := emitOutline_eq_fixed_iff.mpr hfound
    rw [hfixed] at hvalue ⊢
    exact congrArg Phrase.fixed hvalue

/-- A text as a literal is its JSON string. -/
theorem text_literal_string (text : String) :
    (Expr.literal (.string text)).text = Json.quote text := by
  rw [← String.toList_inj, Expr.toList_text]
  rfl

/-- The source of a message is a string where the message becomes a fixed text in memory,
and nowhere else. -/
theorem compile_eq_quote_iff :
    message.compile.result = Json.quote text ↔ message.plan.result = .fixed text := by
  constructor
  · intro hsource
    have hread : Tree.ofSource message.compile.result =
        .ok (.cases (.single message.plan.result)) :=
      ofSource_text (denotes_emitMessage message)
    have hquote := ofSource_text (Denotes.fixed text)
    rw [text_literal_string, ← hsource] at hquote
    simpa using hread.symm.trans hquote
  · intro hfixed
    have houtline := emitOutline_eq_fixed_iff.mp hfixed
    simp only [Message.compile, Backend.emitMessage, Reported.result_map, houtline]
    exact text_literal_string text

end

/-! ## Cases -/

/-- The source of cases by the source of each: one stands alone, and the cases of a plural
group stand in brackets. -/
def Cases.written : Cases String → String
  | .single source => source
  | .plural sources => "[" ++ ", ".intercalate sources ++ "]"

/-- Cases become the phrases of their messages. -/
theorem plan_eq_map (cases : Cases Message) :
    cases.plan.result = cases.map fun message => message.plan.result := by
  cases cases with
  | single message => rfl
  | plural messages => simp [Cases.plan, Cases.map, Reported.all]

/-- No object stands in the expression for a message. -/
theorem nesting_emitMessage (message : Message) :
    (scriptBackend.emitMessage message).result.nesting = 0 := by
  have hkeys : ∀ keys : List Key, Expr.itemsNesting (keys.map Expr.ofKey) = 0 := by
    intro keys
    induction keys with
    | nil => simp [Expr.itemsNesting]
    | cons key keys ih => cases key <;> simp [Expr.itemsNesting, Expr.ofKey, Expr.nesting, ih]
  rw [Backend.emitMessage, Reported.result_map]
  cases message.outline.result with
  | fixed text => simp [Backend.emitOutline, scriptBackend, Expr.nesting]
  | segmented segments keys =>
    simp [Backend.emitOutline, scriptBackend, Expr.ofSegments, Expr.nesting, hkeys]

/-- Cases are written by the sources of their messages. -/
theorem compile_eq_written (cases : Cases Message) :
    cases.compile.result = (cases.map fun message => message.compile.result).written := by
  cases cases with
  | single message => rfl
  | plural messages =>
    have htext : ∀ message : Message,
        message.compile.result.toList = (scriptBackend.emitMessage message).result.source 0 :=
      fun _ => Expr.toList_text _
    have hsteady : ∀ item ∈ messages.map fun message =>
        (scriptBackend.emitMessage message).result, item.levelBehind 0 = 0 := by
      intro item hitem
      obtain ⟨message, -, rfl⟩ := List.mem_map.mp hitem
      exact levelBehind_eq _ (by simp [nesting_emitMessage])
    have harray := source_array_of_steady hsteady
    simp only [List.map_map, Function.comp_def, ← htext] at harray
    rw [← String.toList_inj, Cases.compile, Reported.result_map, Expr.toList_text]
    simpa [Backend.emitCases, Reported.all, scriptBackend, Cases.map, Cases.written,
      String.toList_intercalate, Function.comp_def] using harray

/-! ## Templates -/

namespace Template

/-- A case without placeholders says this text. -/
def Says (segment : List Atom) (text : String) : Prop :=
  Keyless segment ∧ text.toList = plainText (trimAtoms segment)

/-- A case becomes a fixed text in memory when it is one that says this text. -/
theorem plan_messageOf_eq_fixed_iff {segment : List Atom} {text : String} :
    (messageOf segment).plan.result = .fixed text ↔ Says segment text := by
  rw [plan_eq_fixed_iff Context.empty, filterMap_key?_messageOf, List.filterMap_eq_nil_iff]
  refine and_congr_right fun hsegment => ?_
  rw [← String.toList_inj, toList_textIn_messageOf Context.empty hsegment, eq_comm]

/-- The messages of a template are those of the cases of its decomposition. -/
theorem toList_parse_of_decomposed {template : String} {atoms : List Atom}
    (hatoms : Decomposed template.toList atoms) :
    (parse template).toList = (cutAtoms none atoms).map messageOf := by
  rw [parse_of_decomposed hatoms, messagesOf, toList_casesOf]

/-- Without the white space at its ends a text decomposes as it did with it. -/
theorem Decomposed.trim {s : List Char} {atoms : List Atom} (hatoms : Decomposed s atoms) :
    Decomposed (Text.trim s) (trimAtoms atoms) := by
  obtain ⟨rfl, hmarked⟩ := decomposed_iff_marked.mp hatoms
  exact decomposed_iff_marked.mpr
    ⟨(trim_textOf atoms).symm, hmarked.of_isInfix (trimAtoms_isInfix atoms)⟩

end Template

open Template Text

/-- A template without placeholders and without a bar to cut at becomes one fixed text, in
memory and as a source: what it says without the white space at its ends, whatever the
context.  A case of any template becomes a fixed text with both backends exactly when it has
no placeholders, and nothing else is made of a template than what is made of its cases. -/
theorem fixed_iff_keyless {template : String} {atoms : List Atom}
    (hatoms : Decomposed template.toList atoms) :
    (Keyless atoms → Uncut none atoms →
      ∃ text : String, text.toList = plainText (trimAtoms atoms) ∧
        Decomposed (trim template.toList) (trimAtoms atoms) ∧
        Template.plan template = ⟨.single (.fixed text), []⟩ ∧
        Template.compile template = ⟨Json.quote text, []⟩ ∧
        Tree.ofSource (Json.quote text) = .ok (.cases (.single (.fixed text))) ∧
        ∀ context, (parse template).map (fun message => message.textIn context) = .single text ∧
          (Template.plan template).result.map (fun phrase => phrase.evaluate context) =
            .single text) ∧
    List.Forall₂ (fun segment message => ∀ text,
        (message.plan.result = .fixed text ↔ Says segment text) ∧
        (message.compile.result = Json.quote text ↔ Says segment text))
      (cutAtoms none atoms) (parse template).toList ∧
    (Template.plan template).result =
      (parse template).map (fun message => message.plan.result) ∧
    (Template.compile template).result =
      ((parse template).map fun message => message.compile.result).written := by
  refine ⟨?_, ?_, plan_eq_map _, compile_eq_written _⟩
  · intro hkeyless huncut
    have hparse : parse template = .single (messageOf atoms) := by
      rw [parse_of_decomposed hatoms, messagesOf, huncut.cutAtoms_eq]
      rfl
    let text := String.ofList (plainText (trimAtoms atoms))
    have htext : text.toList = plainText (trimAtoms atoms) := String.toList_ofList
    have hfixed : (messageOf atoms).plan.result = .fixed text :=
      plan_messageOf_eq_fixed_iff.mpr ⟨hkeyless, htext⟩
    have hsource := compile_eq_quote_iff.mpr hfixed
    have hquote := ofSource_text (Denotes.fixed text)
    rw [text_literal_string] at hquote
    have hplan : Template.plan template = ⟨.single (.fixed text), []⟩ := by
      rw [← Template.warnings_plan template, ← hfixed, Template.plan, hparse]
      rfl
    have hcompile : Template.compile template = ⟨Json.quote text, []⟩ := by
      rw [← Template.warnings_compile template, ← hsource, Template.compile, hparse]
      rfl
    refine ⟨text, htext, hatoms.trim, hplan, hcompile, hquote, fun context => ⟨?_, ?_⟩⟩
    · rw [hparse, Cases.map, ((plan_eq_fixed_iff context).mp hfixed).2]
    · rw [hplan]
      rfl
  · rw [toList_parse_of_decomposed hatoms, List.forall₂_map_right_iff, List.forall₂_same]
    intro segment _ text
    rw [compile_eq_quote_iff, plan_messageOf_eq_fixed_iff]
    exact ⟨Iff.rfl, Iff.rfl⟩

/-- A template with a literal token that holds a bar and what looks like a placeholder, and
with an escaped bar and a brace outside of tokens. -/
def literalTemplate : String := " \x7b'a|\x7bn\x7d'\x7d\\|\x7d "

/-- The literal token of this template. -/
def literalToken : Token where
  text := braced [] ('\'' :: ['a', '|', '{', 'n', '}'] ++ ['\'']) []
  item := .literal (String.ofList ['a', '|', '{', 'n', '}'])
  isToken := .literal (by simp) (by simp) (by decide)

/-- The decomposition of this template. -/
def literalAtoms : List Atom :=
  [.char ' ', .token literalToken, .char '\\', .char '|', .char '}', .char ' ']

theorem fixed_iff_keyless_literal :
    Decomposed literalTemplate.toList literalAtoms ∧ Keyless literalAtoms ∧
      Uncut none literalAtoms ∧
      Template.plan literalTemplate = ⟨.single (.fixed "a|\x7bn\x7d|\x7d"), []⟩ ∧
      Template.compile literalTemplate = ⟨"\"a|\x7bn\x7d|\x7d\"", []⟩ := by
  have hatoms : Decomposed literalTemplate.toList literalAtoms := by
    rw [decomposed_iff_marked]
    refine ⟨by decide, ?_⟩
    simp only [literalAtoms, Marked, ← token?_eq_none_iff]
    decide
  have hkeyless : Keyless literalAtoms := by
    unfold Keyless
    decide
  have huncut : Uncut none literalAtoms := by
    simp [literalAtoms, Uncut]
  obtain ⟨text, htext, -, hplan, hcompile, -⟩ :=
    (fixed_iff_keyless hatoms).1 hkeyless huncut
  have hsame : text = "a|\x7bn\x7d|\x7d" := by
    rw [← String.toList_inj, htext]
    decide
  subst hsame
  exact ⟨hatoms, hkeyless, huncut, hplan, hcompile.trans (by decide)⟩

end Phrasebook

import Phrasebook.Proofs.Resolver.Order
import Phrasebook.Proofs.Tree.Canonical
import Phrasebook.Translator

/-!
# Rendering what is found

A translator renders one case of the translation that it finds.  There always is such a
case, because neither documents nor sources nor templates give a plural group without
cases, and writing to catalogs or merging them adds no other translations.  So a key
that stands for a translation is never rendered as itself for want of a case.

Main results:

- Definition `Catalog.Built`: the catalogs that can be made.
- Theorem `hasCases_of_built`: every translation that such a catalog holds has a case.
- Theorem `renders_translate`: a resolver renders the first case of what it finds, or
  the case for a count.
- Theorem `translate_resolved`: the same for translators and scopes.
-/

namespace Phrasebook

open Text

/-! ## Translations with a case -/

/-- There is at least one case. -/
def Cases.HasCase {μ : Type} (cases : Cases μ) : Prop :=
  cases ≠ .plural []

/-- What a template stands for has a case. -/
theorem Template.hasCase_plan (template : String) : (plan template).result.HasCase := by
  intro hplan
  apply emitCases_ne_plural_nil (parse_ne_plural_nil template)
  rw [emitCases_treeBackend, Reported.result_map]
  exact congrArg Tree.cases hplan

/-- A node is not a plural group without cases. -/
def Tree.CasesHaveCase (node : Tree Phrase) : Prop :=
  ∀ translation, node = .cases translation → translation.HasCase

/-- A canonical node is not a plural group without cases. -/
theorem Tree.Canonical.casesHaveCase {node : Tree Phrase} (hnode : node.Canonical) :
    node.CasesHaveCase := by
  rintro translation htranslation rfl
  exact hnode.hasCase htranslation

/-! ## Catalogs that can be made -/

namespace Catalog

/-- The catalogs that are made from documents, sources and templates. -/
inductive Built : Catalog → Prop where
  | empty : Built Catalog.empty
  /-- The catalog of a document. -/
  | document {value : Json} {made : Reported Catalog} (hmade : ofJson value = .ok made) :
      Built made.result
  /-- The catalog of a tree that is read from a source. -/
  | source {source : String} {tree : Tree Phrase} {catalog : Catalog}
      (hread : Tree.ofSource source = .ok tree) (hmade : ofTree tree = .ok catalog) :
      Built catalog
  /-- A template is written under a locale and a key. -/
  | put {catalog : Catalog} (hcatalog : Built catalog) (locale key template : String) :
      Built (catalog.put locale key (Template.plan template).result)
  | merge {catalog other : Catalog} (hcatalog : Built catalog) (hother : Built other) :
      Built (catalog.merge other)

/-- Every translation that is stored, under whatever locale and key, has a case. -/
def HasCases (catalog : Catalog) : Prop :=
  ∀ locale ∈ catalog.locales, ∀ entry ∈ locale.2, entry.2.HasCase

/-- Writing translations with cases to a locale keeps all translations with cases. -/
theorem HasCases.putAll {catalog : Catalog} (hcatalog : catalog.HasCases) (locale : String)
    {added : LocaleEntries} (hadded : ∀ entry ∈ added, entry.2.HasCase) :
    (catalog.putAll locale added).HasCases := by
  intro changed hchanged entry hentry
  rcases Entries.mem_of_mem_put hchanged with hold | rfl
  · exact hcatalog changed hold entry hentry
  · rcases Entries.mem_of_mem_putAll hentry with hold | hnew
    · unfold entriesOf at hold
      cases hfound : Entries.get? catalog.locales locale with
      | none => simp [hfound] at hold
      | some entries =>
        rw [hfound, Option.getD_some] at hold
        exact hcatalog _ (Entries.mem_of_get? hfound) entry hold
    · exact hadded entry hnew

/-- Merging catalogs keeps all translations with cases. -/
theorem HasCases.merge {catalog other : Catalog} (hcatalog : catalog.HasCases)
    (hother : other.HasCases) : (catalog.merge other).HasCases := by
  obtain ⟨locales⟩ := other
  unfold Catalog.merge
  induction locales generalizing catalog with
  | nil => exact hcatalog
  | cons locale locales ih =>
    have hlocale := hother locale List.mem_cons_self
    exact ih (hcatalog.putAll locale.1 hlocale)
      fun rest hrest => hother rest (List.mem_cons_of_mem _ hrest)

mutual

/-- Flattening a tree gives translations of its nodes only. -/
theorem cases_mem_nodes_of_flatten : ∀ (tree : Tree Phrase) (path : String),
    ∀ entry ∈ flatten path tree, .cases entry.2 ∈ tree.nodes
  | .cases translation, path => by simp [flatten, Tree.nodes]
  | .map entries, path => by
      intro entry hentry
      exact List.mem_cons_of_mem _
        (cases_mem_nodes_of_flattenEntries entries (some path) entry hentry)
  | .list items, path => by simp [flatten]
  | .data value, path => by simp [flatten]

/-- The same for named trees. -/
theorem cases_mem_nodes_of_flattenEntries :
    ∀ (entries : List (String × Tree Phrase)) (path : Option String),
    ∀ entry ∈ flattenEntries path entries, .cases entry.2 ∈ Tree.entriesNodes entries
  | [], path => by simp [flattenEntries]
  | (name, tree) :: entries, path => by
      intro entry hentry
      rw [Tree.entriesNodes, List.mem_append]
      rcases List.mem_append.mp hentry with hfirst | hrest
      · exact Or.inl (cases_mem_nodes_of_flatten tree _ entry hfirst)
      · exact Or.inr (cases_mem_nodes_of_flattenEntries entries path entry hrest)

end

/-- Filling a catalog with trees keeps all translations with cases when the nodes of the
trees have cases. -/
theorem HasCases.fill {catalog filled : Catalog} {locales : List (String × Tree Phrase)}
    (hcatalog : catalog.HasCases)
    (hlocales : ∀ locale ∈ locales, locale.2.Everywhere Tree.CasesHaveCase)
    (hfilled : catalog.fill locales = .ok filled) : filled.HasCases := by
  induction locales generalizing catalog with
  | nil =>
    cases hfilled
    exact hcatalog
  | cons locale locales ih =>
    obtain ⟨name, tree⟩ := locale
    cases tree with
    | map entries =>
      have hnodes := hlocales _ List.mem_cons_self
      have hadded : ∀ entry ∈ flattenEntries none entries, entry.2.HasCase := by
        intro entry hentry
        have hnode := cases_mem_nodes_of_flattenEntries entries none entry hentry
        exact hnodes _ (List.mem_cons_of_mem _ hnode) _ rfl
      exact ih (hcatalog.putAll name hadded)
        (fun rest hrest => hlocales rest (List.mem_cons_of_mem _ hrest)) hfilled
    | cases translation => cases hfilled
    | list items => cases hfilled
    | data value => cases hfilled

/-- The catalog of a tree holds translations with cases when the nodes of the tree
have. -/
theorem hasCases_ofTree {tree : Tree Phrase} {catalog : Catalog}
    (htree : tree.Everywhere Tree.CasesHaveCase) (hmade : ofTree tree = .ok catalog) :
    catalog.HasCases := by
  cases tree with
  | map locales =>
    have hempty : empty.HasCases := by simp [HasCases, empty]
    exact hempty.fill (Tree.everywhere_map.mp htree).2 hmade
  | cases translation => cases hmade
  | list items => cases hmade
  | data value => cases hmade

/-- Every translation that a catalog holds has a case. -/
theorem hasCases_of_built {catalog : Catalog} (hcatalog : Built catalog) :
    catalog.HasCases := by
  induction hcatalog with
  | empty => simp [HasCases, empty]
  | @document value made hmade =>
    unfold ofJson at hmade
    split at hmade
    · rename_i entries
      obtain ⟨catalog, hcatalog, rfl⟩ := ok_of_map hmade
      have htree := (everywhere_emitValue (.object entries)).mono fun _ hnode =>
        hnode.canonical.casesHaveCase
      exact hasCases_ofTree htree hcatalog
    · cases hmade
  | source hread hmade =>
    have htree := (Script.everywhere_ofSource hread).mono fun _ hnode =>
      hnode.canonical.casesHaveCase
    exact hasCases_ofTree htree hmade
  | put hcatalog locale key template ih =>
    refine ih.putAll locale fun entry hentry => ?_
    rw [List.mem_singleton.mp hentry]
    exact Template.hasCase_plan template
  | merge hcatalog hother ihcatalog ihother => exact ihcatalog.merge ihother

/-- What is found in a catalog has a case. -/
theorem HasCases.get? {catalog : Catalog} (hcatalog : catalog.HasCases)
    {locale key : String} {translation : Translation}
    (hfound : catalog.get? locale key = some translation) : translation.HasCase := by
  obtain ⟨entries, hentries, htranslation⟩ := Option.bind_eq_some_iff.mp hfound
  exact hcatalog _ (Entries.mem_of_get? hentries) _ (Entries.mem_of_get? htranslation)

end Catalog

/-! ## Rendering -/

/-- A translation is rendered by its cases: the first one without a count, and with a
count the one that the table of cases gives for it. -/
structure Translation.Renders (translation : Translation) (context : Context)
    (plain : String) (counted : Int → String) : Prop where
  /-- There is a first case, and it is rendered in the context. -/
  first : ∃ first, translation.first? = some first ∧
    translation.toList.head? = some first ∧ plain = first.evaluate context
  /-- The table gives one of the cases, and it is rendered with the count behind the
  context. -/
  counted : ∀ count, ∃ hindex : Cases.indexFor translation.toList.length count <
      translation.toList.length,
    translation.select? count = some translation.toList[Cases.indexFor _ count] ∧
    counted count = translation.toList[Cases.indexFor _ count].evaluate
      (context.layered (Context.ofCount count))

/-- A translation with a case has a first case and a case for every count. -/
theorem Cases.HasCase.renders {translation : Translation}
    (htranslation : translation.HasCase) (context : Context) (key : String) :
    translation.Renders context
      ((translation.first?.map (·.evaluate context)).getD key)
      fun count => ((translation.select? count).map
        (·.evaluate (context.layered (Context.ofCount count)))).getD key := by
  cases translation with
  | single phrase =>
    exact ⟨⟨phrase, rfl, rfl, rfl⟩, fun count => ⟨by simp [Cases.toList, Cases.indexFor],
      rfl, rfl⟩⟩
  | plural phrases =>
    cases phrases with
    | nil => exact absurd rfl htranslation
    | cons first others =>
      refine ⟨⟨first, rfl, rfl, rfl⟩, fun count => ?_⟩
      have hindex : Cases.indexFor (first :: others).length count <
          (first :: others).length :=
        Cases.indexFor_lt count (Nat.succ_pos _)
      have hselect : (Cases.plural (first :: others)).select? count =
          some (first :: others)[Cases.indexFor _ count] :=
        List.getElem?_eq_getElem hindex
      exact ⟨hindex, hselect, by rw [hselect]; rfl⟩

namespace Resolver

/-- What a key is resolved to stands in one of the two catalogs. -/
theorem hasCase_of_resolve {resolver : Resolver} (hown : resolver.own.HasCases)
    (hshared : resolver.shared.HasCases) {key locale : String} {translation : Translation}
    (hfound : (resolver.resolve key locale).result = .message translation) :
    translation.HasCase := by
  rw [result_resolve] at hfound
  cases hplace : (resolver.allPlaces locale).findSome? (found key) with
  | none => simp [hplace] at hfound
  | some hit =>
    rw [hplace, Resolution.message.injEq] at hfound
    subst hfound
    obtain ⟨⟨catalog, dialect⟩, hmem, hhit⟩ := List.exists_of_findSome?_eq_some hplace
    obtain ⟨asked, -, hplaces⟩ := List.mem_flatMap.mp hmem
    rcases List.mem_append.mp hplaces with hplace | hplace
    · obtain ⟨dialect, -, hsame⟩ := List.mem_map.mp hplace
      cases hsame
      exact hown.get? hhit
    · obtain ⟨dialect, -, hsame⟩ := List.mem_map.mp hplace
      cases hsame
      exact hshared.get? hhit

/-- A resolver renders the first case of what it finds, or the case for a count. -/
theorem renders_translate {resolver : Resolver} (hown : resolver.own.HasCases)
    (hshared : resolver.shared.HasCases) {key locale : String} {translation : Translation}
    (hfound : (resolver.resolve key locale).result = .message translation)
    (context : Context) :
    translation.Renders context (resolver.translate locale key none context).result
      fun count => (resolver.translate locale key (some count) context).result := by
  have hrenders := (hasCase_of_resolve hown hshared hfound).renders context key
  simpa only [translate, Reported.result_map, hfound] using hrenders

end Resolver

/-- No translation that is stored lacks cases.  Whenever a translator or a scope finds a
translation for a key, it renders one of its cases and not the key: the first one, or
the one that the table gives for a count, which is always among them. -/
theorem translate_resolved (scope : Scope) (hown : scope.messages.Built)
    (hshared : scope.parent.messages.Built) (key : String) (context : Context) :
    scope.messages.HasCases ∧ scope.parent.messages.HasCases ∧
    (∀ translation, (scope.parent.resolver.resolve key scope.parent.locale).result =
        .message translation →
      translation.Renders context (scope.parent.translate key context).result
        fun count => (scope.parent.translateCount key count context).result) ∧
    ∀ translation, (scope.lookup key).result = .message translation →
      translation.Renders context (scope.translate key context).result
        fun count => (scope.translateCount key count context).result := by
  have hscope := Catalog.hasCases_of_built hown
  have hparent := Catalog.hasCases_of_built hshared
  have hempty := Catalog.hasCases_of_built .empty
  exact ⟨hscope, hparent,
    fun translation hfound => Resolver.renders_translate hempty hparent hfound context,
    fun translation hfound => Resolver.renders_translate hscope hparent hfound context⟩

/-- A scope with a plural group of its own, under a translator that has another
dialect's. -/
def catScope : Scope where
  parent :=
    { locale := "en-GB"
      fallback := .none
      warnOn := .all
      messages := Catalog.empty.put "en-GB" "cats" (Template.plan "moggies").result }
  messages := Catalog.empty.put "en" "cats" (Template.plan "a cat | {n} cats").result

theorem translate_resolved_catScope :
    catScope.messages.Built ∧ catScope.parent.messages.Built ∧
      (catScope.lookup "cats").result =
        .message (Template.plan "a cat | {n} cats").result ∧
      (catScope.translate "cats" Context.empty).result = "a cat" ∧
      (catScope.translateCount "cats" 3 Context.empty).result = "3 cats" := by
  have hown : catScope.messages.Built := .put .empty "en" "cats" "a cat | {n} cats"
  have hshared : catScope.parent.messages.Built := .put .empty "en-GB" "cats" "moggies"
  have hfound : (catScope.lookup "cats").result =
      .message (Template.plan "a cat | {n} cats").result := by
    decide +kernel
  have hrenders := (translate_resolved catScope hown hshared "cats" Context.empty).2.2.2
    _ hfound
  have hfirstCase : (Template.plan "a cat | {n} cats").result.first? =
      some (.fixed "a cat") := by
    decide +kernel
  have hthirdCase : (Template.plan "a cat | {n} cats").result.select? 3 =
      some (.interpolated ⟨"", [(.named "n", " cats")]⟩) := by
    decide +kernel
  obtain ⟨first, hfirst, -, hplain⟩ := hrenders.first
  obtain ⟨hindex, hselect, hcounted⟩ := hrenders.counted 3
  rw [Option.some.inj (hfirst.symm.trans hfirstCase)] at hplain
  rw [Option.some.inj (hselect.symm.trans hthirdCase)] at hcounted
  exact ⟨hown, hshared, hfound, hplain, hcounted.trans (by decide +kernel)⟩

end Phrasebook

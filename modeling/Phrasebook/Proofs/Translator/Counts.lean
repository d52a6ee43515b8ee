import Phrasebook.Proofs.Render.Keys
import Phrasebook.Proofs.Resolver.Order
import Phrasebook.Translator

/-!
# What a count is good for

A count selects a case of a translation, and it stands for the keys `n` and `count` of that
case where the context of the caller does not answer them.  It does nothing else: two counts
that select the same case are told apart by these keys only.  A context answers a key also
when it answers with an empty text.

Main results:

- Definition `Context.countFor`: the count, for those of the two keys that a context leaves
  open.
- Theorem `evaluate_counted`: with a count behind its context a phrase says what it says with
  the count in the place of these keys.
- Theorem `evaluate_counted_of_answered`: where none of them is open, the count is not seen.
- Theorem `translateCount_counted`: the part that a count has in translators and scopes.
-/

namespace Phrasebook

/-! ## The keys of the count -/

/-- The keys that stand for the count. -/
def Key.countKeys : List Key :=
  [.named "n", .named "count"]

/-- The count in decimal, for those of its keys that a context does not answer. -/
def Context.countFor (context : Context) (count : Int) : Context := fun key =>
  if key ∈ Key.countKeys ∧ context key = none then some (toString count) else none

/-- A count answers its own keys and no others. -/
theorem Context.ofCount_eq (count : Int) (key : Key) :
    ofCount count key = if key ∈ Key.countKeys then some (toString count) else none := by
  cases key with
  | named name => simp [ofCount, Key.countKeys]
  | index place => simp [ofCount, Key.countKeys]

variable (phrase : Phrase) (context : Context) (count : Int)

/-- Asking the context before the count is asking for the count first where the context
leaves its keys open. -/
theorem Context.layered_countFor :
    (context.countFor count).layered context = context.layered (ofCount count) := by
  funext key
  rw [layered, layered, countFor, ofCount_eq]
  by_cases hkey : key ∈ Key.countKeys
  · cases context key <;> simp [hkey]
  · cases context key <;> simp [hkey]

/-- With a count behind its context a phrase says what it says with the count in the place of
the keys of the count that the context does not answer. -/
theorem evaluate_counted :
    phrase.evaluate (context.layered (Context.ofCount count)) =
      (phrase.fill (context.countFor count)).evaluate context := by
  rw [Phrase.evaluate_fill, Context.layered_countFor]

/-- A count is not seen when the context answers its keys or the phrase has none of them. -/
theorem evaluate_counted_of_answered
    (hanswered : ∀ key ∈ phrase.keys, key ∈ Key.countKeys → context key ≠ none) :
    phrase.evaluate (context.layered (Context.ofCount count)) = phrase.evaluate context := by
  apply Phrase.evaluate_congr
  intro key hkey
  rw [Context.layered, Context.ofCount_eq]
  cases hvalue : context key with
  | some text => rfl
  | none =>
    have hother : key ∉ Key.countKeys := fun hcount => hanswered key hkey hcount hvalue
    rw [if_neg hother]
    rfl

/-! ## Resolving and rendering -/

/-- The part that a count has in what is made of a resolution. -/
structure Resolution.Counted (resolution : Resolution) (key : String) (context : Context)
    (counted : Int → Reported String) : Prop where
  /-- A key that stands for nothing is rendered as itself for every count. -/
  unresolved : resolution.translation? = none → ∀ count, (counted count).result = key
  /-- So is one that stands for a plural group without a case for the count. -/
  caseless : ∀ translation count, resolution.translation? = some translation →
    translation.select? count = none → (counted count).result = key
  /-- The selected case is rendered in the context, with the count in the place of its keys
  that the context does not answer. -/
  filled : ∀ translation count phrase, resolution.translation? = some translation →
    translation.select? count = some phrase →
    (counted count).result = (phrase.fill (context.countFor count)).evaluate context
  /-- Two counts that select the same case make no difference when the context answers both
  keys of the count, or when the case has neither. -/
  steady : ∀ translation first second phrase, resolution.translation? = some translation →
    translation.select? first = some phrase → translation.select? second = some phrase →
    ((∀ asked ∈ Key.countKeys, (context asked).isSome) ∨
      ∀ asked ∈ Key.countKeys, asked ∉ phrase.keys) →
    counted first = counted second ∧ (counted first).result = phrase.evaluate context ∧
      (counted second).result = phrase.evaluate context

namespace Resolver

variable (resolver : Resolver) (locale key : String)

/-- A key that stands for nothing stands for itself. -/
theorem eq_of_resolve_eq_key {other : String}
    (hkey : (resolver.resolve key locale).result = .key other) : other = key := by
  rw [result_resolve] at hkey
  split at hkey
  · cases hkey
  · cases hkey
    rfl

/-- The case that a count selects is rendered with the count behind the context. -/
theorem result_translate {translation : Translation} {phrase : Phrase}
    (hfound : (resolver.resolve key locale).result.translation? = some translation)
    (hphrase : translation.select? count = some phrase) :
    (resolver.translate locale key (some count) context).result =
      phrase.evaluate (context.layered (Context.ofCount count)) := by
  cases hresult : (resolver.resolve key locale).result with
  | key other => simp [hresult, Resolution.translation?] at hfound
  | message found =>
    rw [hresult, Resolution.translation?, Option.some.injEq] at hfound
    simp only [translate, Reported.result_map, hresult, hfound, hphrase, Option.map_some,
      Option.getD_some]

/-- Without such a case the key is rendered as itself. -/
theorem result_translate_of_none
    (hnone : ∀ translation, (resolver.resolve key locale).result.translation? =
      some translation → translation.select? count = none) :
    (resolver.translate locale key (some count) context).result = key := by
  cases hresult : (resolver.resolve key locale).result with
  | key other =>
    simp only [translate, Reported.result_map, hresult]
    exact resolver.eq_of_resolve_eq_key locale key hresult
  | message found =>
    have hcase := hnone found (by rw [hresult]; rfl)
    simp only [translate, Reported.result_map, hresult, hcase, Option.map_none, Option.getD_none]

/-- The part that a count has in a resolver. -/
theorem counted_translate :
    (resolver.resolve key locale).result.Counted key context fun count =>
      resolver.translate locale key (some count) context where
  unresolved := by
    intro hnone count
    apply result_translate_of_none
    intro translation hfound
    rw [hnone] at hfound
    cases hfound
  caseless := by
    intro translation count hfound hcase
    apply result_translate_of_none
    intro other hother
    rw [Option.some.inj (hother.symm.trans hfound), hcase]
  filled := by
    intro translation count phrase hfound hphrase
    rw [resolver.result_translate context count locale key hfound hphrase, evaluate_counted]
  steady := by
    intro translation first second phrase hfound hfirst hsecond hopen
    have hanswered : ∀ asked ∈ phrase.keys, asked ∈ Key.countKeys → context asked ≠ none := by
      intro asked hasked hcount
      rcases hopen with hanswers | hneither
      · exact Option.isSome_iff_ne_none.mp (hanswers asked hcount)
      · exact absurd hasked (hneither asked hcount)
    have hplain : ∀ count, translation.select? count = some phrase →
        (resolver.translate locale key (some count) context).result =
          phrase.evaluate context := by
      intro count hphrase
      rw [resolver.result_translate context count locale key hfound hphrase,
        evaluate_counted_of_answered phrase context count hanswered]
    -- The warnings are those of the resolution, which does not know of the count.
    have hreported : ∀ count, translation.select? count = some phrase →
        resolver.translate locale key (some count) context =
          ⟨phrase.evaluate context, (resolver.resolve key locale).warnings⟩ := by
      intro count hphrase
      rw [← hplain count hphrase]
      rfl
    exact ⟨(hreported first hfirst).trans (hreported second hsecond).symm,
      hplain first hfirst, hplain second hsecond⟩

end Resolver

/-- In translators and in scopes a count selects a case and stands for the keys `n` and
`count` where the context does not answer them, and for nothing else. -/
theorem translateCount_counted (key : String) (context : Context) :
    (∀ translator : Translator,
      (translator.resolver.resolve key translator.locale).result.Counted key context
        fun count => translator.translateCount key count context) ∧
    ∀ scope : Scope, (scope.lookup key).result.Counted key context
      fun count => scope.translateCount key count context := by
  refine ⟨?_, ?_⟩
  · intro translator
    exact translator.resolver.counted_translate context translator.locale key
  · intro scope
    exact scope.resolver.counted_translate context scope.locale key

/-- A scope with a plural group that uses both keys of the count. -/
def litterScope : Scope where
  parent :=
    { locale := "en-GB"
      fallback := .none
      warnOn := .all
      messages := Catalog.empty }
  messages := Catalog.empty.put "en" "litter"
    (Template.plan "one kitten | {n} of {count} kittens").result

/-- The case of this group for counts from two on. -/
def litterPhrase : Phrase :=
  .interpolated ⟨"", [(.named "n", " of "), (.named "count", " kittens")]⟩

/-- A context that answers `n`, with an empty text. -/
def nullContext : Context := .ofJson (.object [("n", .null)])

/-- A context that answers `n` and `count`. -/
def manyContext : Context := .ofJson (.object [("n", .null), ("count", .string "many")])

theorem translateCount_counted_litter :
    (litterScope.lookup "litter").result.translation? =
        some (Template.plan "one kitten | {n} of {count} kittens").result ∧
      (litterScope.translateCount "litter" 3 nullContext).result = " of 3 kittens" ∧
      (litterScope.translateCount "litter" 7 nullContext).result = " of 7 kittens" ∧
      litterScope.translateCount "litter" 3 manyContext =
        litterScope.translateCount "litter" 7 manyContext ∧
      (litterScope.translateCount "litter" 3 manyContext).result = " of many kittens" ∧
      (litterScope.translateCount "puppies" 3 manyContext).result = "puppies" := by
  have hfound : (litterScope.lookup "litter").result.translation? =
      some (Template.plan "one kitten | {n} of {count} kittens").result := by
    decide +kernel
  have hunknown : (litterScope.lookup "puppies").result.translation? = none := by
    decide +kernel
  have hthird : (Template.plan "one kitten | {n} of {count} kittens").result.select? 3 =
      some litterPhrase := by
    decide +kernel
  have hseventh : (Template.plan "one kitten | {n} of {count} kittens").result.select? 7 =
      some litterPhrase := by
    decide +kernel
  have hnull := (translateCount_counted "litter" nullContext).2 litterScope
  have hmany := (translateCount_counted "litter" manyContext).2 litterScope
  have hthree := hnull.filled _ 3 _ hfound hthird
  have hseven := hnull.filled _ 7 _ hfound hseventh
  obtain ⟨hsame, hplain, -⟩ := hmany.steady _ 3 7 _ hfound hthird hseventh
    (Or.inl (by decide +kernel))
  have hkey := ((translateCount_counted "puppies" manyContext).2 litterScope).unresolved
    hunknown 3
  exact ⟨hfound, hthree.trans (by decide +kernel), hseven.trans (by decide +kernel), hsame,
    hplain.trans (by decide +kernel), hkey⟩

end Phrasebook

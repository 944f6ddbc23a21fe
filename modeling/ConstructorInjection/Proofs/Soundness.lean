import Mathlib.Data.List.Basic
import Mathlib.Tactic.Common
import ConstructorInjection.Proofs.Accesses

/-!
A converted class has what its converted calls use: for each dependency a parameter of its type and
an assignment to its property.
-/

namespace ConstructorInjection

/-- What a class must have for the calls that have been converted in it, if it had a constructor with
certain parameters before. -/
structure ConstructorSite.Serves (after : ConstructorSite) (stream : TokenStream)
    (known : List Parameter) (sites : List CallSite) : Prop where
  present : after.constructor?.isSome = true
  once : ∀ site ∈ sites, ∀ dependency ∈ site.dependencies,
    known.countP (·.name == dependency.variableName) ≤ 1 →
      after.parameters.countP (·.name == dependency.variableName) = 1
  provides : ∀ site ∈ sites, ∀ dependency ∈ site.dependencies,
    ∃ parameter, after.Provides stream dependency parameter

namespace Converter

variable {converter : Converter} {stream : TokenStream} {conversion : Conversion} {source : Text}

/-- A conversion with replacements whose delimiters match serves all of its calls, if the constructor
can be read once they are in place. -/
theorem process_serves (lexed : tokenize source = .ok stream)
    (processed : converter.process stream = .ok conversion)
    (spaces : Spaces converter.options.indent) (marker : converter.options.marker = defaultMarker)
    (converted : conversion.sites ≠ [])
    (nested : ∀ site ∈ conversion.sites, Nested site.replacement)
    (readable : ∀ site, (replaced stream conversion).locate? converter.options.marker = some site →
      site.Readable (replaced stream conversion)) :
    ∃ before after, (replaced stream conversion).locate? converter.options.marker = some before ∧
      conversion.stream.locate? converter.options.marker = some after ∧
      after.Serves conversion.stream before.parameters conversion.sites := by
  obtain ⟨first, inSites⟩ := List.exists_mem_of_ne_nil _ converted
  obtain ⟨declaration, found, _⟩ := exists_mem_sites processed inSites
  have sites := sites_of_process processed found
  rw [sites] at nested
  obtain ⟨edited, before, applied, level, wellSpaced, located⟩ :=
    exists_replaced converter.options.marker (level_of_tokenize lexed)
      (wellSpaced_of_tokenize lexed) found nested
  rw [Edit.applyAll_eq_ok inOrder_replacementEdits, ← sites, ← replaced, Except.ok.injEq] at applied
  subst applied
  rcases (process_eq_ok processed).2 with ⟨absent, _⟩ | ⟨again, locatedAgain, injects⟩
  · rcases absent with noSites | unlocated
    · exact absurd noSites converted
    · rw [replaced, unlocated] at located
      contradiction
  · rw [← replaced] at locatedAgain injects
    rw [located, Option.some.injEq] at locatedAgain
    subst locatedAgain
    have member {site : CallSite} (inSites : site ∈ conversion.sites) {dependency : Dependency}
        (uses : dependency ∈ site.dependencies) :
        dependency ∈ distinct (CallSite.dependenciesOfAll conversion.sites) := by
      obtain ⟨inner, within, same⟩ := (CallSite.mem_dependencies_iff site).mp uses
      exact mem_distinct_iff.mpr
        ((CallSite.mem_dependenciesOfAll_iff _).mpr ⟨site, inSites, inner, within, same⟩)
    have someRequest : distinct (CallSite.dependenciesOfAll conversion.sites) ≠ [] :=
      List.ne_nil_of_mem (member inSites
        ((CallSite.mem_dependencies_iff first).mpr ⟨first, .itself first, rfl⟩))
    obtain ⟨after, locatedAfter, present, provides⟩ := inject_provides located marker level
      wellSpaced (readable before located) spaces someRequest (isQualified_of_process processed)
      injects
    exact ⟨before, after, located, locatedAfter, present,
      fun site inSites dependency uses => (provides dependency (member inSites uses)).1,
      fun site inSites dependency uses => (provides dependency (member inSites uses)).2⟩

theorem process_serves_callInConstructor :
    ∃ conversion before after, tokenize callInConstructor = .ok callInConstructorTokens ∧
      conventions.process callInConstructorTokens = .ok conversion ∧ conversion.sites ≠ [] ∧
      (∀ site ∈ conversion.sites, Nested site.replacement) ∧
      (replaced callInConstructorTokens conversion).locate? defaultMarker = some before ∧
      before.Readable (replaced callInConstructorTokens conversion) ∧
      conversion.stream.locate? defaultMarker = some after ∧
      after.Serves conversion.stream before.parameters conversion.sites := by
  obtain ⟨conversion, processed, _⟩ := process_callInConstructor
  have sites := sites_of_process processed findClass?_callInConstructor
  have replacements := sites_callInConstructor.1
  simp only [← sites] at replacements
  have converted : conversion.sites ≠ [] := by
    intro none
    rw [none] at replacements
    contradiction
  have nested : ∀ site ∈ conversion.sites, Nested site.replacement := by
    intro site member
    have inEdits : Edit.mk site.range site.replacement ∈ replacementEdits conversion.sites :=
      List.mem_map_of_mem member
    rw [replacements, List.mem_singleton, Edit.mk.injEq] at inEdits
    rw [inEdits.2]
    exact .plain rfl rfl (.plain rfl rfl (.plain rfl rfl .nil))
  have isReplaced : replaced callInConstructorTokens conversion = callInConstructorReplaced := by
    rw [replaced, replacements]
    decide
  have located := locate?_callInConstructorReplaced
  have readable : callInConstructorSite.Readable callInConstructorReplaced := by
    intro constructor member
    cases member
    exact ⟨⟨8, 9⟩, rfl, by decide +kernel⟩
  have spaces : Spaces conventions.options.indent := .of_all rfl
  rw [← isReplaced] at located readable
  obtain ⟨before, after, locatedBefore, locatedAfter, serves⟩ :=
    process_serves tokenize_callInConstructor processed spaces rfl converted nested
      (fun site isSite => by rwa [← Option.some.inj (located.symm.trans isSite)])
  have isBefore := Option.some.inj (located.symm.trans locatedBefore)
  exact ⟨conversion, before, after, tokenize_callInConstructor, processed, converted, nested,
    locatedBefore, by rwa [← isBefore], locatedAfter, serves⟩

section CallAsType

/-- After the last segment of the class, so that a helper can be called `this`. -/
def afterLastSegment : Converter :=
  ⟨⟨MappingTables.empty, .trailingSegment⟩, ⟨defaultMarker, false, "    "⟩⟩

/-- A call between the type and the name of a parameter, whose replacement makes it a parameter
`$this` as well. -/
def callAsType : Text :=
  "<?php class A\x7babstract function __construct(\\Magento\\Foo\\Helper\\This Mage::helper('foo/this') $a,\\Magento\\Foo\\Helper\\This $this);\x7d"

def callAsTypeTokens : TokenStream :=
  [⟨.openTag, "<?php ", 1⟩, ⟨.keyword, "class", 1⟩, ⟨.whitespace, " ", 1⟩, ⟨.identifier, "A", 1⟩,
   ⟨.openBrace, "\x7b", 1⟩, ⟨.keyword, "abstract", 1⟩, ⟨.whitespace, " ", 1⟩,
   ⟨.keyword, "function", 1⟩, ⟨.whitespace, " ", 1⟩, ⟨.identifier, "__construct", 1⟩,
   ⟨.openParen, "(", 1⟩, ⟨.qualifiedName, "\\Magento\\Foo\\Helper\\This", 1⟩,
   ⟨.whitespace, " ", 1⟩, ⟨.identifier, "Mage", 1⟩, ⟨.doubleColon, "::", 1⟩,
   ⟨.identifier, "helper", 1⟩, ⟨.openParen, "(", 1⟩, ⟨.stringLiteral, "'foo/this'", 1⟩,
   ⟨.closeParen, ")", 1⟩, ⟨.whitespace, " ", 1⟩, ⟨.variableName, "$a", 1⟩, ⟨.comma, ",", 1⟩,
   ⟨.qualifiedName, "\\Magento\\Foo\\Helper\\This", 1⟩, ⟨.whitespace, " ", 1⟩,
   ⟨.variableName, "$this", 1⟩, ⟨.closeParen, ")", 1⟩, ⟨.semicolon, ";", 1⟩, ⟨.closeBrace, "\x7d", 1⟩]

theorem tokenize_callAsType : tokenize callAsType = .ok callAsTypeTokens :=
  eq_ok_of_toOption (by decide +kernel)

theorem readable_callAsType :
    ∀ site, callAsTypeTokens.locate? defaultMarker = some site →
      site.Readable callAsTypeTokens ∧ site.parameters.countP (·.name == ("this" : Text)) = 1 := by
  have located : callAsTypeTokens.locate? defaultMarker = some ⟨⟨1, some "A", none, 4, 27⟩,
      some ⟨5, some ⟨10, 25⟩,
        [⟨some "\\Magento\\Foo\\Helper\\This Mage::helper('foo/this')", "a", false, false, false,
            ⟨11, 21⟩⟩,
          ⟨some "\\Magento\\Foo\\Helper\\This", "this", false, false, false, ⟨22, 25⟩⟩],
        none, none⟩, 0⟩ := by
    decide +kernel
  intro site isSite
  rw [located, Option.some.injEq] at isSite
  subst isSite
  refine ⟨?_, by decide⟩
  intro constructor member
  cases member
  exact ⟨⟨10, 25⟩, rfl, by decide +kernel⟩

def thisAccess : List Token :=
  [⟨.variableName, "$this", 0⟩, ⟨.objectOperator, "->", 0⟩, ⟨.identifier, "this", 0⟩]

theorem process_callAsType :
    ∃ conversion, afterLastSegment.process callAsTypeTokens = .ok conversion ∧
      conversion.sites.map CallSite.replacement = [thisAccess] ∧
      conversion.sites.map (·.dependency.variableName) = [("this" : Text)] ∧
      ∃ site, conversion.stream.locate? defaultMarker = some site ∧
        site.parameters.countP (·.name == ("this" : Text)) = 2 := by
  have converted : (afterLastSegment.process callAsTypeTokens).toOption.any (fun conversion =>
      conversion.sites.map CallSite.replacement == [thisAccess] &&
        conversion.sites.map (·.dependency.variableName) == [("this" : Text)] &&
        (conversion.stream.locate? defaultMarker).any fun site =>
          site.parameters.countP (·.name == ("this" : Text)) == 2) = true := by
    decide +kernel
  simp only [Option.any_eq_true, Bool.and_eq_true, beq_iff_eq] at converted
  obtain ⟨conversion, result, ⟨replacements, names⟩, site, located, twice⟩ := converted
  exact ⟨conversion, eq_ok_of_toOption result, replacements, names, site, located, twice⟩

theorem not_serves_callAsType :
    ¬ ∀ (converter : Converter) (source : Text) (stream : TokenStream) (conversion : Conversion),
      tokenize source = .ok stream → converter.process stream = .ok conversion →
        Spaces converter.options.indent → converter.options.marker = defaultMarker →
          conversion.sites ≠ [] → (∀ site ∈ conversion.sites, Nested site.replacement) →
            (∀ site, stream.locate? converter.options.marker = some site → site.Readable stream) →
              ∃ before after, stream.locate? converter.options.marker = some before ∧
                conversion.stream.locate? converter.options.marker = some after ∧
                after.Serves conversion.stream before.parameters conversion.sites := by
  intro serves
  obtain ⟨conversion, processed, replacements, names, found, located, twice⟩ := process_callAsType
  have spaces : Spaces afterLastSegment.options.indent := .of_all rfl
  have converted : conversion.sites ≠ [] := by
    intro none
    rw [none] at names
    contradiction
  have nested : ∀ site ∈ conversion.sites, Nested site.replacement := by
    intro site member
    have isAccess : site.replacement ∈ conversion.sites.map CallSite.replacement :=
      List.mem_map_of_mem member
    rw [replacements, List.mem_singleton] at isAccess
    rw [isAccess]
    exact .plain rfl rfl (.plain rfl rfl (.plain rfl rfl .nil))
  obtain ⟨before, after, locatedBefore, locatedAfter, served⟩ := serves _ _ _ _ tokenize_callAsType
    processed spaces rfl converted nested fun site isSite => (readable_callAsType site isSite).1
  obtain ⟨site, inSites⟩ := List.exists_mem_of_ne_nil _ converted
  have named : site.dependency.variableName ∈
      conversion.sites.map (·.dependency.variableName) :=
    List.mem_map.mpr ⟨site, inSites, rfl⟩
  rw [names, List.mem_singleton] at named
  have once := served.once site inSites site.dependency
    ((CallSite.mem_dependencies_iff site).mpr ⟨site, .itself site, rfl⟩)
  rw [named, (readable_callAsType before locatedBefore).2] at once
  rw [← Option.some.inj (located.symm.trans locatedAfter), twice] at once
  exact absurd (once (Nat.le_refl 1)) (by decide)

end CallAsType

end Converter

end ConstructorInjection

import Mathlib.Data.List.Basic
import Mathlib.Tactic.Common
import ConstructorInjection.Proofs.Preservation

/-!
What holds of a class after an injection: its parameters are those of before with the new ones in
one place, and all that was asked for can be used.
-/

namespace ConstructorInjection

/-- No mandatory parameter stands behind an optional one. -/
def MandatoryFirst (parameters : List Parameter) : Prop :=
  parameters.Pairwise fun left right => right.isMandatory = true → left.isMandatory = true

theorem mandatoryFirst_map_bare {parameters : List Parameter} :
    MandatoryFirst (parameters.map Parameter.bare) ↔ MandatoryFirst parameters := by
  simp only [MandatoryFirst, List.pairwise_map, Parameter.isMandatory_bare]

/-- Parameters behind the last mandatory one keep the order. -/
theorem Extended.mandatoryFirst {new : List Dependency} {known extended : List Parameter}
    (isExtended : Extended new known extended) (ordered : MandatoryFirst known) :
    MandatoryFirst extended := by
  obtain ⟨earlier, later, rfl, mandatory, optional, rfl⟩ := isExtended
  obtain ⟨orderedEarlier, orderedLater, _⟩ := List.pairwise_append.mp ordered
  have newMandatory : ∀ parameter ∈ new.map Dependency.asParameter,
      parameter.isMandatory = true := by
    intro parameter member
    obtain ⟨dependency, _, rfl⟩ := List.mem_map.mp member
    rfl
  have earlierMandatory : ∀ parameter ∈ earlier, parameter.isMandatory = true := by
    intro parameter member
    obtain ⟨front, last, rfl⟩ := (List.eq_nil_or_concat' earlier).resolve_left
      (List.ne_nil_of_mem member)
    have isLast : last.isMandatory = true := mandatory last (by simp)
    rcases List.mem_append.mp member with inFront | atEnd
    · exact (List.pairwise_append.mp orderedEarlier).2.2 parameter inFront last (by simp) isLast
    · rwa [List.mem_singleton.mp atEnd]
  refine List.pairwise_append.mpr ⟨orderedEarlier, List.pairwise_append.mpr ⟨?_, orderedLater, ?_⟩,
    ?_⟩
  · exact List.pairwise_of_forall_mem_list fun left isNew _ _ _ => newMandatory left isNew
  · exact fun left isNew _ _ _ => newMandatory left isNew
  · exact fun left isEarlier _ _ _ => earlierMandatory left isEarlier

/-- A class after an injection, by what it was before. -/
structure Injected.Completes (injected : Injected) (request : List Dependency)
    (options : InjectionOptions) (before after : ConstructorSite) : Prop where
  present : after.constructor?.isSome = true
  parameters : Extended injected.added (before.parameters.map Parameter.bare)
    (after.parameters.map Parameter.bare)
  mandatoryFirst : MandatoryFirst before.parameters → MandatoryFirst after.parameters
  provides : ∀ dependency ∈ request,
    ∃ parameter, after.Provides injected.stream dependency parameter
  declared : options.declareProperties = true → ∀ dependency ∈ injected.added,
    injected.stream.declaresProperty after.declaration dependency.variableName = true

variable {stream : TokenStream} {site : ConstructorSite} {options : InjectionOptions}
  {request : List Dependency} {injected : Injected}

/-- Every new parameter has its property. -/
theorem ConstructorSite.Grown.declares_added {dependencies : List Dependency} {plan : InjectionPlan}
    {after : ConstructorSite} {edited : TokenStream}
    (grown : site.Grown stream plan after edited)
    (planned : site.plan stream options dependencies = .ok plan)
    (declaring : options.declareProperties = true) {dependency : Dependency}
    (member : dependency ∈ plan.parameters) :
    edited.declaresProperty after.declaration dependency.variableName = true := by
  obtain ⟨parameters, _, properties, _⟩ := ConstructorSite.plan_eq_ok planned
  rw [parameters, List.mem_filter] at member
  cases already : stream.declaresProperty site.declaration dependency.variableName with
  | true => exact grown.declared _ already
  | false =>
      refine grown.declares dependency ?_
      rw [properties]
      refine List.mem_filter.mpr ⟨member.1, ?_⟩
      rw [ConstructorSite.lacksProperty, member.2, declaring, already]
      rfl

theorem inject_completes {source : Text} (lexed : tokenize source = .ok stream)
    (located : stream.locate? options.marker = some site) (marker : options.marker = defaultMarker)
    (readable : site.Readable stream) (spaces : Spaces options.indent) (nonempty : request ≠ [])
    (qualified : ∀ dependency ∈ request, dependency.className.head? = some '\\')
    (result : inject stream site request options = .ok injected) :
    ∃ after, injected.stream.locate? options.marker = some after ∧
      injected.Completes request options site after := by
  obtain ⟨dependencies, plan, after, distinct, planned, added, locatedAfter, grown⟩ :=
    inject_grown located marker (level_of_tokenize lexed) (wellSpaced_of_tokenize lexed) readable
      spaces nonempty qualified result
  refine ⟨after, locatedAfter, grown.present, by rw [added]; exact grown.parameters, ?_, ?_, ?_⟩
  · intro ordered
    rw [← mandatoryFirst_map_bare] at ordered ⊢
    exact grown.parameters.mandatoryFirst ordered
  · exact fun dependency member => (grown.provides_of_distinct planned distinct member).2
  · intro declaring dependency member
    rw [added] at member
    exact grown.declares_added planned declaring member

section Variadic

def variadic : Text :=
  "<?php class A\x7bfunction __construct($a,\\B ...$b)\x7b$x=1;\x7d\x7d"

def variadicTokens : TokenStream :=
  [⟨.openTag, "<?php ", 1⟩, ⟨.keyword, "class", 1⟩, ⟨.whitespace, " ", 1⟩, ⟨.identifier, "A", 1⟩,
   ⟨.openBrace, "\x7b", 1⟩, ⟨.keyword, "function", 1⟩, ⟨.whitespace, " ", 1⟩,
   ⟨.identifier, "__construct", 1⟩, ⟨.openParen, "(", 1⟩, ⟨.variableName, "$a", 1⟩,
   ⟨.comma, ",", 1⟩, ⟨.qualifiedName, "\\B", 1⟩, ⟨.whitespace, " ", 1⟩, ⟨.ellipsis, "...", 1⟩,
   ⟨.variableName, "$b", 1⟩, ⟨.closeParen, ")", 1⟩, ⟨.openBrace, "\x7b", 1⟩,
   ⟨.variableName, "$x", 1⟩, ⟨.assign, "=", 1⟩, ⟨.number, "1", 1⟩, ⟨.semicolon, ";", 1⟩,
   ⟨.closeBrace, "\x7d", 1⟩, ⟨.closeBrace, "\x7d", 1⟩]

def variadicSite : ConstructorSite :=
  ⟨⟨1, some "A", none, 4, 22⟩,
    some ⟨5, some ⟨8, 15⟩,
      [⟨none, "a", false, false, false, ⟨9, 10⟩⟩, ⟨some "\\B", "b", false, true, false, ⟨11, 15⟩⟩],
      some 16, some 21⟩, 0⟩

def variadicRequest : List Dependency :=
  [logger, ⟨"\\B", "b"⟩]

theorem tokenize_variadic : tokenize variadic = .ok variadicTokens :=
  eq_ok_of_toOption (by decide +kernel)

theorem locate?_variadic :
    variadicTokens.locate? InjectionOptions.default.marker = some variadicSite := by
  decide +kernel

theorem readable_variadic : variadicSite.Readable variadicTokens := by
  intro constructor member
  cases member
  exact ⟨⟨8, 15⟩, rfl, by decide +kernel⟩

theorem exists_inject_variadic :
    ∃ injected, inject variadicTokens variadicSite variadicRequest .default = .ok injected ∧
      injected.added = [logger] := by
  have distinct : distinctDependencies variadicRequest = .ok variadicRequest :=
    eq_ok_of_toOption (by decide +kernel)
  have planned : variadicSite.plan variadicTokens .default variadicRequest =
      .ok ⟨[logger], variadicRequest, variadicRequest, false⟩ :=
    eq_ok_of_toOption (by decide +kernel)
  have edited : (injectionEdits variadicTokens variadicSite variadicRequest
      .default).toOption.isSome = true := by
    decide +kernel
  obtain ⟨edits, edited⟩ := Option.isSome_iff_exists.mp edited
  exact ⟨_, (inject_eq_ok_iff locate?_variadic).mpr ⟨_, _, edits, distinct, planned,
    eq_ok_of_toOption edited, rfl⟩, rfl⟩

theorem inject_completes_variadic :
    ∃ injected after, tokenize variadic = .ok variadicTokens ∧
      variadicTokens.locate? defaultMarker = some variadicSite ∧
      variadicSite.Readable variadicTokens ∧
      inject variadicTokens variadicSite variadicRequest .default = .ok injected ∧
      injected.added = [logger] ∧ injected.stream.locate? defaultMarker = some after ∧
      injected.Completes variadicRequest .default variadicSite after := by
  obtain ⟨injected, result, added⟩ := exists_inject_variadic
  have spaces : Spaces InjectionOptions.default.indent := .of_all rfl
  obtain ⟨after, locatedAfter, completes⟩ := inject_completes tokenize_variadic locate?_variadic rfl
    readable_variadic spaces (by simp [variadicRequest]) (by decide) result
  exact ⟨injected, after, tokenize_variadic, locate?_variadic, readable_variadic, result, added,
    locatedAfter, completes⟩

end Variadic

end ConstructorInjection

import Mathlib.Data.List.Basic
import Mathlib.Tactic.Common
import ConstructorInjection.Proofs.Postconditions

/-!
Injecting the same dependencies into a class once more changes nothing: every parameter, assignment
and property that the first injection wrote is found again.
-/

namespace ConstructorInjection

section Injections

variable {stream edited : TokenStream} {before after site : ConstructorSite}
  {options : InjectionOptions} {plan again : InjectionPlan} {dependencies request : List Dependency}
  {injected : Injected}

namespace ConstructorSite

theorem Provides.agrees {dependency : Dependency} {parameter : Parameter}
    (provides : site.Provides stream dependency parameter) : site.Agrees dependency := by
  intro other found
  rw [provides.found, Option.some.injEq] at found
  subst found
  exact provides.typed

/-- What a class lacks behind an injection it lacked before: its parameter has not become a promoted
one, and no assignment has gone. -/
theorem Grown.lacked (grown : before.Grown stream plan after edited)
    (planned : before.plan stream options dependencies = .ok plan) {dependency : Dependency}
    (lacks : after.lacksAssignment edited dependency = true) :
    before.lacksParameter dependency = true ∨ before.lacksAssignment stream dependency = true := by
  rw [lacksAssignment, Bool.and_eq_true, Bool.not_eq_true', Bool.not_eq_true'] at lacks
  obtain ⟨unassigned, plain⟩ := lacks
  cases existing : before.parameter? dependency.variableName with
  | none => exact .inl (by rw [lacksParameter, existing]; rfl)
  | some parameter =>
      obtain ⟨found, isFound, isBare⟩ := grown.parameter?_of_existing planned existing
      have promoted := congrArg Parameter.isPromoted isBare
      simp only [Parameter.bare] at promoted
      rw [isFound, Option.any_some, promoted] at plain
      have unassignedBefore : before.assigns stream dependency.variableName = false := by
        rw [Bool.eq_false_iff]
        intro already
        rw [grown.kept _ already] at unassigned
        contradiction
      right
      rw [lacksAssignment, unassignedBefore, existing, Option.any_some, plain]
      rfl

/-- A property that would be declared now has been declared with the parameter or with the
assignment that asks for it. -/
theorem Grown.lacksProperty_eq_false (grown : before.Grown stream plan after edited)
    (planned : before.plan stream options dependencies = .ok plan) {dependency : Dependency}
    (member : dependency ∈ dependencies) (present : after.lacksParameter dependency = false) :
    after.lacksProperty edited options dependency = false := by
  rw [lacksProperty, present, Bool.false_or, Bool.eq_false_iff]
  intro lacksProperty
  simp only [Bool.and_eq_true, Bool.not_eq_true'] at lacksProperty
  obtain ⟨lacksAssignment, declaring, undeclared⟩ := lacksProperty
  have lacked := grown.lacked planned lacksAssignment
  cases declared : stream.declaresProperty before.declaration dependency.variableName with
  | true =>
      rw [grown.declared _ declared] at undeclared
      contradiction
  | false =>
      have isNew : dependency ∈ plan.properties := by
        rw [(plan_eq_ok planned).2.2.1]
        refine List.mem_filter.mpr ⟨member, ?_⟩
        rw [ConstructorSite.lacksProperty, declaring, declared, Bool.or_eq_true _ _ |>.mpr lacked]
        rfl
      rw [grown.declares dependency isNew] at undeclared
      contradiction

/-- Once a plan has been carried out, the next one for the same dependencies is empty. -/
theorem Grown.exists_plan_isEmpty (grown : before.Grown stream plan after edited)
    (planned : before.plan stream options dependencies = .ok plan)
    (differ : NamesDiffer dependencies) :
    ∃ next, after.plan edited options dependencies = .ok next ∧ next.isEmpty = true := by
  have provided : ∀ dependency ∈ dependencies, ∃ parameter,
      after.Provides edited dependency parameter :=
    fun dependency member => (grown.provides planned differ member).2
  obtain ⟨next, plannedAgain⟩ := exists_plan_iff.mpr fun dependency member =>
    (provided dependency member).choose_spec.agrees
  have present : ∀ dependency ∈ dependencies, after.lacksParameter dependency = false := by
    intro dependency member
    obtain ⟨parameter, provides⟩ := provided dependency member
    rw [lacksParameter, provides.found]
    rfl
  refine ⟨next, plannedAgain, plan_isEmpty plannedAgain present ?_ ?_⟩
  · intro bodied dependency member
    obtain ⟨parameter, provides⟩ := provided dependency member
    rw [lacksAssignment, provides.found, Option.any_some]
    cases promoted : parameter.isPromoted with
    | true => rw [Bool.not_true, Bool.and_false]
    | false => rw [provides.assigned bodied promoted, Bool.not_true, Bool.false_and]
  · exact fun dependency member =>
      grown.lacksProperty_eq_false planned member (present dependency member)

end ConstructorSite

/-- An empty plan leaves the stream alone. -/
theorem inject_of_isEmpty (distinct : distinctDependencies request = .ok dependencies)
    (planned : site.plan stream options dependencies = .ok plan) (isEmpty : plan.isEmpty = true) :
    inject stream site request options = .ok ⟨stream, []⟩ := by
  rw [inject, distinct]
  simp only [bind, Except.bind, planned, if_pos isEmpty]
  rfl

theorem inject_idempotent {source : Text} (lexed : tokenize source = .ok stream)
    (located : stream.locate? options.marker = some site) (marker : options.marker = defaultMarker)
    (readable : site.Readable stream) (spaces : Spaces options.indent)
    (qualified : ∀ dependency ∈ request, dependency.className.head? = some '\\')
    (result : inject stream site request options = .ok injected) :
    ∃ after, injected.stream.locate? options.marker = some after ∧
      inject injected.stream after request options = .ok ⟨injected.stream, []⟩ := by
  by_cases nonempty : request = []
  · subst nonempty
    obtain ⟨plan, planned⟩ :=
      (@ConstructorSite.exists_plan_iff site stream options []).mpr (by simp)
    have untouched : inject stream site [] options = .ok ⟨stream, []⟩ :=
      inject_of_isEmpty rfl planned
        (ConstructorSite.plan_isEmpty planned (by simp) (by simp) (by simp))
    cases result.symm.trans untouched
    exact ⟨site, located, untouched⟩
  · obtain ⟨dependencies, plan, after, distinct, planned, _, locatedAfter, grown⟩ :=
      inject_grown located marker (level_of_tokenize lexed) (wellSpaced_of_tokenize lexed) readable
        spaces nonempty qualified result
    have differ := (distinctFrom_eq_ok distinct).2.2 List.Pairwise.nil
    obtain ⟨next, plannedAgain, isEmpty⟩ := grown.exists_plan_isEmpty planned differ
    exact ⟨after, locatedAfter, inject_of_isEmpty distinct plannedAgain isEmpty⟩

theorem inject_idempotent_variadic :
    ∃ injected after, tokenize variadic = .ok variadicTokens ∧
      variadicTokens.locate? defaultMarker = some variadicSite ∧
      variadicSite.Readable variadicTokens ∧
      inject variadicTokens variadicSite variadicRequest .default = .ok injected ∧
      injected.added = [logger] ∧ injected.stream.locate? defaultMarker = some after ∧
      inject injected.stream after variadicRequest .default = .ok ⟨injected.stream, []⟩ := by
  obtain ⟨injected, result, added⟩ := exists_inject_variadic
  have spaces : Spaces InjectionOptions.default.indent := .of_all rfl
  obtain ⟨after, locatedAfter, unchanged⟩ := inject_idempotent tokenize_variadic locate?_variadic
    rfl readable_variadic spaces (by decide) result
  exact ⟨injected, after, tokenize_variadic, locate?_variadic, readable_variadic, result, added,
    locatedAfter, unchanged⟩

end Injections

end ConstructorInjection

import Mathlib.Data.List.Basic
import Mathlib.Tactic.Common
import ConstructorInjection.Injection.Plan

/-!
What an injection plan asks for: a parameter for each dependency whose name has none, and an
assignment for each that is neither promoted nor assigned already.
-/

namespace ConstructorInjection

theorem sameType_iff {left right : Text} :
    sameType left right = true ↔
      (left.dropWhile (· == '\\')).map Char.toLower =
        (right.dropWhile (· == '\\')).map Char.toLower := by
  rw [sameType, Text.equalIgnoringCase, beq_iff_eq]

theorem sameType_refl (type : Text) : sameType type type = true :=
  sameType_iff.mpr rfl

theorem sameType_trans {first second third : Text} (left : sameType first second = true)
    (right : sameType second third = true) : sameType first third = true :=
  sameType_iff.mpr ((sameType_iff.mp left).trans (sameType_iff.mp right))

/-- No two dependencies share a name. -/
def NamesDiffer (dependencies : List Dependency) : Prop :=
  dependencies.Pairwise fun left right => left.variableName ≠ right.variableName

theorem distinctFrom_eq_ok {seen request dependencies : List Dependency}
    (result : distinctFrom seen request = .ok dependencies) :
    (∃ added, dependencies = seen ++ added ∧
        ∀ dependency ∈ added, dependency ∈ request ∧ dependency.isValid = true) ∧
      (∀ requested ∈ request, ∃ dependency ∈ dependencies,
        dependency.variableName = requested.variableName ∧
          sameType dependency.className requested.className = true) ∧
      (NamesDiffer seen → NamesDiffer dependencies) := by
  induction request generalizing seen with
  | nil =>
      cases result
      exact ⟨⟨[], by simp, by simp⟩, by simp, id⟩
  | cons next rest ih =>
      rw [distinctFrom] at result
      split at result
      next => contradiction
      next valid =>
        have isValid : next.isValid = true := by simpa using valid
        split at result
        next absent =>
          obtain ⟨⟨added, whole, origin⟩, represented, differ⟩ := ih result
          refine ⟨⟨next :: added, by simp [whole], ?_⟩, ?_, ?_⟩
          · intro dependency member
            rcases List.mem_cons.mp member with rfl | later
            · exact ⟨by simp, isValid⟩
            · exact ⟨List.mem_cons_of_mem _ (origin dependency later).1, (origin dependency later).2⟩
          · intro requested member
            rcases List.mem_cons.mp member with rfl | later
            · exact ⟨requested, by simp [whole], rfl, sameType_refl _⟩
            · exact represented requested later
          · intro distinctSeen
            apply differ
            rw [NamesDiffer, List.pairwise_append]
            refine ⟨distinctSeen, List.pairwise_singleton _ _, ?_⟩
            intro earlier inSeen other isNext
            rw [List.mem_singleton.mp isNext]
            simpa using List.find?_eq_none.mp absent earlier inSeen
        next earlier found =>
          split at result
          next same =>
            obtain ⟨⟨added, whole, origin⟩, represented, differ⟩ := ih result
            refine ⟨⟨added, whole, ?_⟩, ?_, differ⟩
            · intro dependency member
              exact ⟨List.mem_cons_of_mem _ (origin dependency member).1,
                (origin dependency member).2⟩
            · intro requested member
              rcases List.mem_cons.mp member with rfl | later
              · refine ⟨earlier, ?_, by simpa using List.find?_some found, same⟩
                rw [whole]
                exact List.mem_append_left _ (List.mem_of_find?_eq_some found)
              · exact represented requested later
          next => contradiction

/-- Only what was requested and is valid is kept. -/
theorem requested_of_distinctDependencies {request dependencies : List Dependency}
    (distinct : distinctDependencies request = .ok dependencies) :
    ∀ dependency ∈ dependencies, dependency ∈ request ∧ dependency.isValid = true := by
  obtain ⟨⟨added, whole, origin⟩, _⟩ := distinctFrom_eq_ok distinct
  rw [List.nil_append] at whole
  subst whole
  exact origin

namespace ConstructorSite

variable {site : ConstructorSite} {stream : TokenStream} {options : InjectionOptions}

def lacksParameter (site : ConstructorSite) (dependency : Dependency) : Bool :=
  (site.parameter? dependency.variableName).isNone

def lacksAssignment (site : ConstructorSite) (stream : TokenStream) (dependency : Dependency) :
    Bool :=
  !site.assigns stream dependency.variableName &&
    !(site.parameter? dependency.variableName).any (·.isPromoted)

def lacksProperty (site : ConstructorSite) (stream : TokenStream) (options : InjectionOptions)
    (dependency : Dependency) : Bool :=
  (site.lacksParameter dependency || site.lacksAssignment stream dependency) &&
    (options.declareProperties &&
      !stream.declaresProperty site.declaration dependency.variableName)

/-- A parameter that has the name of a dependency has its type. -/
def Agrees (site : ConstructorSite) (dependency : Dependency) : Prop :=
  ∀ parameter, site.parameter? dependency.variableName = some parameter →
    ∃ type, parameter.typeName = some type ∧ sameType type dependency.className = true

theorem planOne_eq_ok {plan next : InjectionPlan} {dependency : Dependency}
    (result : site.planOne stream options plan dependency = .ok next) :
    next.parameters = plan.parameters ++ [dependency].filter site.lacksParameter ∧
      next.assignments = plan.assignments ++ [dependency].filter (site.lacksAssignment stream) ∧
      next.properties = plan.properties ++ [dependency].filter (site.lacksProperty stream options) ∧
      site.Agrees dependency := by
  have property (lacks : site.lacksParameter dependency = true ∨
      site.lacksAssignment stream dependency = true) :
      (if options.declareProperties &&
          !stream.declaresProperty site.declaration dependency.variableName then [dependency]
        else []) = [dependency].filter (site.lacksProperty stream options) := by
    rw [← Bool.or_eq_true] at lacks
    rw [List.filter_singleton, lacksProperty, lacks, Bool.true_and, Bool.cond_eq_ite]
  rw [planOne] at result
  cases found : site.parameter? dependency.variableName with
  | none =>
      rw [found] at result
      cases result
      have lacks : site.lacksParameter dependency = true := by rw [lacksParameter, found]; rfl
      have assignment : site.lacksAssignment stream dependency =
          !site.assigns stream dependency.variableName := by
        rw [lacksAssignment, found]
        simp
      refine ⟨by simp [lacks], ?_, by rw [← property (.inl lacks)], ?_⟩
      · cases assigned : site.assigns stream dependency.variableName <;> simp [assignment, assigned]
      · intro parameter isFound
        rw [found] at isFound
        contradiction
  | some existing =>
      rw [found] at result
      have present : site.lacksParameter dependency = false := by rw [lacksParameter, found]; rfl
      have assignment : site.lacksAssignment stream dependency =
          (!site.assigns stream dependency.variableName && !existing.isPromoted) := by
        rw [lacksAssignment, found]
        rfl
      simp only at result
      split at result
      next => contradiction
      next matching =>
        have agrees : site.Agrees dependency := by
          intro parameter isFound
          rw [found, Option.some.injEq] at isFound
          subst isFound
          have same : existing.typeName.any (sameType · dependency.className) = true := by
            simpa using matching
          obtain ⟨type, typed, isSame⟩ := (Option.any_eq_true _ _).mp same
          exact ⟨type, typed, isSame⟩
        split at result
        next complete =>
          cases result
          have none : site.lacksAssignment stream dependency = false := by
            rw [assignment]
            rw [Bool.or_eq_true] at complete
            rcases complete with promoted | assigned
            · rw [promoted, Bool.not_true, Bool.and_false]
            · rw [assigned, Bool.not_true, Bool.false_and]
          have complete : site.lacksProperty stream options dependency = false := by
            rw [lacksProperty, present, none]
            rfl
          exact ⟨by simp [present], by simp [none], by simp [complete], agrees⟩
        next incomplete =>
          cases result
          have lacks : site.lacksAssignment stream dependency = true := by
            rw [assignment]
            simpa [and_comm] using incomplete
          exact ⟨by simp [present], by simp [lacks], by rw [← property (.inr lacks)], agrees⟩

theorem foldlM_planOne_eq_ok {plan last : InjectionPlan} {dependencies : List Dependency}
    (result : dependencies.foldlM (site.planOne stream options) plan = .ok last) :
    last.parameters = plan.parameters ++ dependencies.filter site.lacksParameter ∧
      last.assignments = plan.assignments ++ dependencies.filter (site.lacksAssignment stream) ∧
      last.properties = plan.properties ++
        dependencies.filter (site.lacksProperty stream options) ∧
      ∀ dependency ∈ dependencies, site.Agrees dependency := by
  induction dependencies generalizing plan with
  | nil =>
      cases result
      exact ⟨by simp, by simp, by simp, by simp⟩
  | cons first others ih =>
      rw [List.foldlM_cons] at result
      cases step : site.planOne stream options plan first with
      | error fault =>
          rw [step] at result
          contradiction
      | ok next =>
          rw [step] at result
          obtain ⟨parameters, assignments, properties, agrees⟩ := planOne_eq_ok step
          obtain ⟨laterParameters, laterAssignments, laterProperties, laterAgree⟩ := ih result
          refine ⟨?_, ?_, ?_, ?_⟩
          · rw [laterParameters, parameters, List.append_assoc, ← List.filter_append]
            rfl
          · rw [laterAssignments, assignments, List.append_assoc, ← List.filter_append]
            rfl
          · rw [laterProperties, properties, List.append_assoc, ← List.filter_append]
            rfl
          · intro dependency member
            rcases List.mem_cons.mp member with rfl | later
            · exact agrees
            · exact laterAgree dependency later

/-- A plan covers all that its dependencies lack. -/
theorem plan_eq_ok {plan : InjectionPlan} {dependencies : List Dependency}
    (result : site.plan stream options dependencies = .ok plan) :
    plan.parameters = dependencies.filter site.lacksParameter ∧
      plan.assignments = (if site.isBodiless then []
        else dependencies.filter (site.lacksAssignment stream)) ∧
      plan.properties = dependencies.filter (site.lacksProperty stream options) ∧
      ∀ dependency ∈ dependencies, site.Agrees dependency := by
  rw [ConstructorSite.plan] at result
  cases folded : dependencies.foldlM (site.planOne stream options) ⟨[], [], [], false⟩ with
  | error fault =>
      rw [folded] at result
      contradiction
  | ok found =>
      rw [folded] at result
      cases result
      obtain ⟨parameters, assignments, properties, agree⟩ := foldlM_planOne_eq_ok folded
      rw [List.nil_append] at parameters assignments properties
      exact ⟨parameters, by rw [← assignments], properties, agree⟩

/-- A plan asks for no other dependencies than those it was made for. -/
theorem forall_mem_planned {plan : InjectionPlan} {dependencies : List Dependency}
    {holds : Dependency → Prop} (planned : site.plan stream options dependencies = .ok plan)
    (all : ∀ dependency ∈ dependencies, holds dependency) :
    (∀ dependency ∈ plan.parameters, holds dependency) ∧
      (∀ dependency ∈ plan.assignments, holds dependency) ∧
      ∀ dependency ∈ plan.properties, holds dependency := by
  obtain ⟨parameters, assignments, properties, _⟩ := plan_eq_ok planned
  rw [parameters, assignments, properties]
  refine ⟨?_, ?_, ?_⟩
  · exact fun dependency member => all dependency (List.mem_filter.mp member).1
  · intro dependency member
    split at member
    · simp at member
    · exact all dependency (List.mem_filter.mp member).1
  · exact fun dependency member => all dependency (List.mem_filter.mp member).1

theorem exists_planOne {plan : InjectionPlan} {dependency : Dependency}
    (agrees : site.Agrees dependency) :
    ∃ next, site.planOne stream options plan dependency = .ok next := by
  rw [planOne]
  split
  next existing found =>
    obtain ⟨type, typed, same⟩ := agrees existing found
    simp only [typed, Option.any_some, same, Bool.not_true, Bool.false_eq_true, if_false]
    split <;> exact ⟨_, rfl⟩
  next => exact ⟨_, rfl⟩

/-- A plan comes about unless a parameter stands for another type. -/
theorem exists_plan_iff {dependencies : List Dependency} :
    (∃ plan, site.plan stream options dependencies = .ok plan) ↔
      ∀ dependency ∈ dependencies, site.Agrees dependency := by
  refine ⟨fun ⟨plan, planned⟩ => (plan_eq_ok planned).2.2.2, fun agree => ?_⟩
  have folded (plan : InjectionPlan) :
      ∃ last, dependencies.foldlM (site.planOne stream options) plan = .ok last := by
    induction dependencies generalizing plan with
    | nil => exact ⟨plan, rfl⟩
    | cons first others ih =>
        obtain ⟨agrees, agree⟩ := List.forall_mem_cons.mp agree
        obtain ⟨next, step⟩ := @exists_planOne site stream options plan first agrees
        rw [List.foldlM_cons, step]
        exact ih agree next
  obtain ⟨last, folded⟩ := folded ⟨[], [], [], false⟩
  rw [ConstructorSite.plan, folded]
  exact ⟨_, rfl⟩

theorem parentCall_of_plan {plan : InjectionPlan} {dependencies : List Dependency}
    (result : site.plan stream options dependencies = .ok plan) :
    plan.parentCall = (site.constructor?.isNone && site.declaration.parent.isSome &&
      !plan.parameters.isEmpty) := by
  rw [ConstructorSite.plan] at result
  cases folded : dependencies.foldlM (site.planOne stream options) ⟨[], [], [], false⟩ with
  | error fault =>
      rw [folded] at result
      contradiction
  | ok found =>
      rw [folded] at result
      cases result
      rfl

/-- A class that holds all its dependencies lacks nothing. -/
theorem plan_isEmpty {plan : InjectionPlan} {dependencies : List Dependency}
    (result : site.plan stream options dependencies = .ok plan)
    (parameters : ∀ dependency ∈ dependencies, site.lacksParameter dependency = false)
    (assignments : site.isBodiless = false →
      ∀ dependency ∈ dependencies, site.lacksAssignment stream dependency = false)
    (properties : ∀ dependency ∈ dependencies,
      site.lacksProperty stream options dependency = false) : plan.isEmpty = true := by
  have nothing {lacks : Dependency → Bool}
      (holds : ∀ dependency ∈ dependencies, lacks dependency = false) :
      dependencies.filter lacks = [] :=
    List.filter_eq_nil_iff.mpr fun dependency member => by simp [holds dependency member]
  have parentCall := parentCall_of_plan result
  obtain ⟨noParameters, noAssignments, noProperties, _⟩ := plan_eq_ok result
  rw [nothing parameters] at noParameters
  rw [nothing properties] at noProperties
  have bodied : plan.assignments = [] := by
    rw [noAssignments]
    split
    next => rfl
    next bodied => exact nothing (assignments (by simpa using bodied))
  rw [noParameters] at parentCall
  rw [InjectionPlan.isEmpty, noParameters, bodied, noProperties, parentCall]
  simp

end ConstructorSite

end ConstructorInjection

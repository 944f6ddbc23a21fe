import Mathlib.Data.List.Basic
import Mathlib.Tactic.Common
import ConstructorInjection.Proofs.Replacements

/-!
What converted calls use: the dependencies of a call and of the calls in its arguments, each with a
fully qualified class.
-/

namespace ConstructorInjection

theorem Text.head?_replaceAll {part replacement text : Text} {first : Char}
    (sameHead : replacement.head? = some first) (starts : text.head? = some first) :
    (Text.replaceAll part replacement text).head? = some first := by
  cases text with
  | nil => contradiction
  | cons character rest =>
      rw [Text.replaceAll]
      split
      · rw [List.head?_append, sameHead]
        rfl
      · exact starts

/-- A class name that PHP reads from the global namespace on. -/
def Dependency.IsQualified (dependency : Dependency) : Prop :=
  dependency.className.head? = some '\\'

theorem head?_qualify (className : Text) : (qualify className).head? = some '\\' := by
  rw [qualify]
  split
  next qualified => exact qualified
  next => rfl

theorem head?_conventionalClass (legacy : Text) :
    (conventionalClass legacy).head? = some '\\' := by
  unfold conventionalClass
  apply Text.head?_replaceAll rfl
  apply Text.head?_replaceAll rfl
  split <;> rfl

namespace Resolver

theorem head?_targetClass (resolver : Resolver) (legacy : Text) :
    (resolver.targetClass legacy).head? = some '\\' := by
  unfold targetClass
  split
  next mapped _ => exact head?_qualify mapped
  next =>
    split
    next => exact head?_qualify legacy
    next => exact head?_conventionalClass legacy

theorem isQualified_of_resolve? {resolver : Resolver} {kind : AliasKind} {aliasText : Text}
    {dependency : Dependency} (resolved : resolver.resolve? kind aliasText = some dependency) :
    dependency.IsQualified := by
  obtain ⟨legacy, _, rfl⟩ := Option.map_eq_some_iff.mp resolved
  exact head?_targetClass resolver legacy

end Resolver

theorem Dependency.IsQualified.factory {dependency : Dependency}
    (qualified : dependency.IsQualified) : dependency.factory.IsQualified := by
  rw [IsQualified, Dependency.factory, List.head?_append, qualified]
  rfl

/-- What holds of resolved classes, of their factories and of the services of the framework holds of
all that calls use. -/
theorem CallShape.dependency?_induction {motive : Dependency → Prop} {resolver : Resolver}
    (services : motive scopeConfig ∧ motive eventManager ∧ motive logger)
    (resolved : ∀ kind aliasText dependency,
      resolver.resolve? kind aliasText = some dependency → motive dependency)
    (factory : ∀ dependency, motive dependency → motive dependency.factory) {shape : CallShape}
    {stream : TokenStream} {call : LegacyCall} {dependency : Dependency}
    (found : shape.dependency? resolver stream call = some dependency) : motive dependency := by
  have looked {kind : AliasKind} {result : Dependency}
      (lookup : (do
        let first ← call.arguments.head?
        let aliasText ← stream.constantArgument? first
        resolver.resolve? kind aliasText) = some result) : motive result := by
    simp only [Option.bind_eq_bind, Option.bind_eq_some_iff] at lookup
    obtain ⟨_, _, _, _, found⟩ := lookup
    exact resolved _ _ _ found
  cases shape <;> simp only [dependency?] at found
  case helper | getSingleton | getResourceSingleton => exact looked found
  case getModel | getResourceModel =>
    obtain ⟨product, lookup, rfl⟩ := Option.map_eq_some_iff.mp found
    exact factory product (looked lookup)
  case getStoreConfig | getStoreConfigFlag =>
    cases found
    exact services.1
  case dispatchEvent =>
    cases found
    exact services.2.1
  case logException | log =>
    cases found
    exact services.2.2

theorem CallShape.isQualified_of_dependency? {shape : CallShape} {resolver : Resolver}
    {stream : TokenStream} {call : LegacyCall} {dependency : Dependency}
    (found : shape.dependency? resolver stream call = some dependency) :
    dependency.IsQualified :=
  dependency?_induction (motive := Dependency.IsQualified) ⟨rfl, rfl, rfl⟩
    (fun _ _ _ => Resolver.isQualified_of_resolve?) (fun _ => Dependency.IsQualified.factory) found

theorem IsLabel.of_parts {label : Text} {first : Char}
    (parts : ∀ character ∈ first :: label, isLabelPart character = true)
    (noDigit : first.isDigit = false) : IsLabel (first :: label) := by
  have start := parts first (by simp)
  rw [isLabelPart, noDigit, Bool.or_false] at start
  exact .mk start fun character member => parts character (List.mem_cons_of_mem _ member)

theorem IsLabel.append {label more : Text} (isLabel : IsLabel label)
    (parts : ∀ character ∈ more, isLabelPart character = true) : IsLabel (label ++ more) := by
  cases isLabel with
  | mk start first => exact .mk start (List.forall_mem_append.mpr ⟨first, parts⟩)

namespace NamingScheme

theorem isLabel_sanitize (name : Text) : IsLabel (sanitize name) := by
  unfold sanitize
  split
  next => exact .of_all (by decide) (by decide)
  next first rest kept =>
    have parts : ∀ character ∈ first :: rest, isLabelPart character = true := by
      intro character member
      rw [← kept] at member
      have named := (List.mem_filter.mp member).2
      rw [Bool.or_eq_true, beq_iff_eq] at named
      rcases named with alphanumeric | rfl
      · exact isLabelPart_of_isAlphanumeric alphanumeric
      · rfl
    split
    next => exact .mk rfl parts
    next noDigit => exact .of_parts parts (Bool.eq_false_iff.mpr noDigit)

theorem isLabel_variableName (scheme : NamingScheme) (className : Text) :
    IsLabel (scheme.variableName className) := by
  cases scheme with
  | trailingSegment => exact isLabel_sanitize _
  | moduleQualified =>
      rw [variableName]
      unfold moduleName
      split
      · exact isLabel_sanitize _
      · exact isLabel_sanitize _

end NamingScheme

/-- What calls use is injected as a variable. -/
theorem CallShape.isLabel_of_dependency? {shape : CallShape} {resolver : Resolver}
    {stream : TokenStream} {call : LegacyCall} {dependency : Dependency}
    (found : shape.dependency? resolver stream call = some dependency) :
    IsLabel dependency.variableName := by
  refine dependency?_induction (motive := fun used => IsLabel used.variableName) ?_ ?_ ?_ found
  · exact ⟨.of_all (by decide) (by decide), .of_all (by decide) (by decide),
      .of_all (by decide) (by decide)⟩
  · intro kind aliasText product resolved
    obtain ⟨legacy, _, rfl⟩ := Option.map_eq_some_iff.mp resolved
    exact NamingScheme.isLabel_variableName _ _
  · intro product isLabel
    have parts : ("Factory" : Text).all isLabelPart = true := by decide
    exact isLabel.append (List.all_eq_true.mp parts)

namespace CallSite

mutual
/-- A call uses what it and the calls in its arguments are converted to. -/
theorem mem_dependencies_iff {dependency : Dependency} :
    (site : CallSite) → (dependency ∈ site.dependencies ↔
      ∃ inner, Within inner site ∧ inner.dependency = dependency)
  | ⟨shape, start, stop, own, replacement, nested⟩ => by
      rw [dependencies, List.mem_cons, mem_dependenciesOfAll_iff nested]
      constructor
      · rintro (rfl | ⟨site, member, inner, within, rfl⟩)
        · exact ⟨_, .itself _, rfl⟩
        · exact ⟨inner, .nested member within, rfl⟩
      · rintro ⟨inner, within, rfl⟩
        cases within with
        | itself => exact .inl rfl
        | nested member within => exact .inr ⟨_, member, inner, within, rfl⟩

theorem mem_dependenciesOfAll_iff {dependency : Dependency} :
    (sites : List CallSite) → (dependency ∈ dependenciesOfAll sites ↔
      ∃ site ∈ sites, ∃ inner, Within inner site ∧ inner.dependency = dependency)
  | [] => by simp [dependenciesOfAll]
  | site :: rest => by
      rw [dependenciesOfAll, List.mem_append, mem_dependencies_iff site,
        mem_dependenciesOfAll_iff rest, List.exists_mem_cons_iff]
end

end CallSite

theorem mem_foldl_distinct {dependency : Dependency} {found dependencies : List Dependency} :
    dependency ∈ dependencies.foldl
        (fun found next => if found.contains next then found else found ++ [next]) found ↔
      dependency ∈ found ∨ dependency ∈ dependencies := by
  induction dependencies generalizing found with
  | nil => simp
  | cons next rest ih =>
      rw [List.foldl_cons, ih, List.mem_cons]
      split
      next known =>
        have isKnown : next ∈ found := List.contains_iff_mem.mp known
        constructor
        · rintro (early | late)
          · exact .inl early
          · exact .inr (.inr late)
        · rintro (early | rfl | late)
          · exact .inl early
          · exact .inl isKnown
          · exact .inr late
      next =>
        rw [List.mem_append, List.mem_singleton, or_assoc]

theorem mem_distinct_iff {dependency : Dependency} {dependencies : List Dependency} :
    dependency ∈ distinct dependencies ↔ dependency ∈ dependencies := by
  rw [distinct, mem_foldl_distinct]
  simp

namespace Converter

variable {converter : Converter} {stream : TokenStream} {declaration : ClassDeclaration}

/-- All that converted calls use has a fully qualified class. -/
theorem isQualified_of_mem_dependenciesOfAll {dependency : Dependency}
    (member : dependency ∈ CallSite.dependenciesOfAll (converter.sites stream declaration)) :
    dependency.IsQualified := by
  obtain ⟨site, inSites, inner, within, rfl⟩ :=
    (CallSite.mem_dependenciesOfAll_iff _).mp member
  have dispatched := (dispatched_of_mem_sites inSites).1
  obtain ⟨_, _, converted⟩ := dispatch?_eq_some (within.bounds dispatched).1
  exact CallShape.isQualified_of_dependency? converted.dependency_eq

end Converter

end ConstructorInjection

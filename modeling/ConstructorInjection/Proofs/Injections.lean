import Mathlib.Data.List.Basic
import Mathlib.Tactic.Common
import ConstructorInjection.Proofs.InjectionEdits
import ConstructorInjection.Proofs.Plans

/-!
An injected class has what its dependencies need: the constructor is found again in the edited
stream, with a parameter of the right type for each dependency and an assignment to its property.
-/

namespace ConstructorInjection

/-- The tokens behind a parameter list, up to the body of the method and on. -/
inductive MethodBody : List Token → List Token → Prop where
  | mk {between body rest : List Token} {brace closer : Token} (opens : brace.kind = .openBrace)
      (first : ∀ token ∈ between, token.kind ≠ .openBrace ∧ token.kind ≠ .semicolon)
      (level : Level body) (closes : closer.kind.isCloser = true) :
      MethodBody (between ++ brace :: (body ++ closer :: rest)) body

/-- The places of a body by the parts around it. -/
theorem MethodBody.places {stream : TokenStream} {start : Nat} {between body rest : List Token}
    {brace closer : Token} (cut : stream.drop start = between ++ brace :: (body ++ closer :: rest))
    (opens : brace.kind = .openBrace)
    (first : ∀ token ∈ between, token.kind ≠ .openBrace ∧ token.kind ≠ .semicolon)
    (level : Level body) (closes : closer.kind.isCloser = true) :
    let opening := start + between.length
    let closing := opening + 1 + body.length
    stream.bodyOpen? start stream.length = some opening ∧
      stream.matchingClose? opening = some closing ∧
      stream.drop (opening + 1) = body ++ closer :: rest ∧
      ∀ name, stream.assignsProperty opening closing name = true ↔ Assigns name body := by
  have behind := TokenStream.drop_of_drop_eq_cons cut
  refine ⟨?_, ?_, behind, fun name => TokenStream.assignsProperty_iff behind rfl closes⟩
  · exact TokenStream.bodyOpen?_eq_some_iff.mpr ⟨between, brace, _, cut, rfl, opens, first⟩
  · refine TokenStream.matchingClose?_eq_some_iff.mpr
      ⟨brace, body, closer, rest, ?_, rfl, by rw [opens]; rfl, closes, level⟩
    rw [TokenStream.drop_of_drop_eq cut]
    rfl

theorem bodyClose_eq_none {stream : TokenStream} {start : Nat} {tail : List Token}
    (cut : stream.drop start = tail) (noBody : ∀ body, ¬ MethodBody tail body) :
    (stream.bodyOpen? start stream.length).bind stream.matchingClose? = none := by
  rw [Option.eq_none_iff_forall_ne_some]
  intro closing result
  obtain ⟨opening, opened, closed⟩ := Option.bind_eq_some_iff.mp result
  obtain ⟨between, brace, rest, cutBrace, rfl, isBrace, first⟩ :=
    TokenStream.bodyOpen?_eq_some_iff.mp opened
  obtain ⟨other, body, closer, behind, atBrace, _, _, closes, level⟩ :=
    TokenStream.matchingClose?_eq_some_iff.mp closed
  rw [TokenStream.drop_of_drop_eq cutBrace, List.cons_append, List.cons.injEq] at atBrace
  rw [cut, atBrace.2] at cutBrace
  exact noBody body (by rw [cutBrace]; exact .mk isBrace first level closes)

namespace TokenStream

theorem assigns_iff_of_cut {stream : TokenStream} {site : ConstructorSite}
    {constructor : Constructor} {opening : Nat} {brace closer : Token} {body rest : List Token}
    (existing : site.constructor? = some constructor) (opens : constructor.bodyOpen = some opening)
    (closes : constructor.bodyClose = some (opening + 1 + body.length))
    (cut : stream.drop opening = brace :: (body ++ closer :: rest))
    (isCloser : closer.kind.isCloser = true) (name : Text) :
    site.assigns stream name = true ↔ Assigns name body := by
  rw [← assignsProperty_iff (drop_eq_cons_iff.mp cut).2 rfl isCloser, ConstructorSite.assigns,
    existing]
  simp only [opens, closes, Option.bind_some]

/-- The assignments of a constructor are those in its body. -/
theorem assigns_iff_of_body {stream : TokenStream} {site : ConstructorSite}
    {constructor : Constructor} {start : Nat} {body : List Token}
    (existing : site.constructor? = some constructor)
    (atBody : constructor.bodyOpen = stream.bodyOpen? start stream.length)
    (atEnd : constructor.bodyClose = constructor.bodyOpen.bind stream.matchingClose?)
    (method : MethodBody (stream.drop start) body) :
    ∀ name, site.assigns stream name = true ↔ Assigns name body := by
  generalize cut : stream.drop start = tail at method
  cases method with
  | mk isBrace first level closes =>
      obtain ⟨opened, closed, _, assigns⟩ := MethodBody.places cut isBrace first level closes
      rw [opened] at atBody
      rw [atBody, Option.bind_some, closed] at atEnd
      intro name
      rw [← assigns, ConstructorSite.assigns, existing]
      simp only [atBody, atEnd, Option.bind_some]

theorem isSome_bodyOpen?_iff {stream : TokenStream} {start : Nat} :
    (stream.bodyOpen? start stream.length).isSome = true ↔
      ∃ between brace rest, stream.drop start = between ++ brace :: rest ∧
        brace.kind = .openBrace ∧
        ∀ token ∈ between, token.kind ≠ .openBrace ∧ token.kind ≠ .semicolon := by
  simp only [Option.isSome_iff_exists, bodyOpen?_eq_some_iff]
  constructor
  · rintro ⟨_, between, brace, rest, cut, rfl, isBrace, first⟩
    exact ⟨between, brace, rest, cut, isBrace, first⟩
  · rintro ⟨between, brace, rest, cut, isBrace, first⟩
    exact ⟨_, between, brace, rest, cut, rfl, isBrace, first⟩

/-- In a stream whose delimiters match, a body that is opened is closed. -/
theorem isSome_matchingClose?_of_bodyOpen? {stream : TokenStream} {start opening : Nat}
    (level : Level stream) (opened : stream.bodyOpen? start stream.length = some opening) :
    (stream.matchingClose? opening).isSome = true := by
  obtain ⟨between, brace, rest, cut, rfl, isBrace, _⟩ := bodyOpen?_eq_some_iff.mp opened
  obtain ⟨closing, closed, _⟩ := exists_matchingClose? level (getElem?_of_drop_eq cut)
    (by rw [isBrace]; rfl)
  rw [closed]
  rfl

theorem locate?_eq_some_iff {stream : TokenStream} {marker : Text} {site : ConstructorSite} :
    stream.locate? marker = some site ↔
      stream.findClass? = some site.declaration ∧
        let marked := (stream.members site.declaration.bodyOpen site.declaration.bodyClose).filterMap
          (stream.markedMethod? marker)
        (marked.head?.map fun (function, name) => stream.constructorAt function name) =
          site.constructor? ∧ marked.length - 1 = site.duplicates := by
  obtain ⟨declaration, constructor?, duplicates⟩ := site
  simp only [locate?, Option.bind_eq_bind, Option.bind_eq_some_iff, Option.pure_def,
    Option.some.injEq, ConstructorSite.mk.injEq]
  constructor
  · rintro ⟨found, isFound, rfl, same, count⟩
    exact ⟨isFound, same, count⟩
  · rintro ⟨isFound, same, count⟩
    exact ⟨declaration, isFound, rfl, same, count⟩

theorem exists_locate? {stream : TokenStream} {declaration : ClassDeclaration} (marker : Text)
    (found : stream.findClass? = some declaration) :
    ∃ site, stream.locate? marker = some site ∧ declaration = site.declaration := by
  simp [locate?, found]

/-- Where the head of a located constructor stands. -/
theorem locate?_head {stream : TokenStream} {marker : Text} {site : ConstructorSite}
    {constructor : Constructor} (located : stream.locate? marker = some site)
    (existing : site.constructor? = some constructor) :
    ∃ before head rest function name,
      stream.drop (site.declaration.bodyOpen + 1) = before ++ (head ++ rest) ∧ Level before ∧
      Unmarked marker before ∧ MethodHead marker head ∧
      constructor = stream.constructorAt function name ∧
      name + 1 = site.declaration.bodyOpen + 1 + before.length + head.length := by
  obtain ⟨found, isConstructor, _⟩ := locate?_eq_some_iff.mp located
  rw [existing, Option.map_eq_some_iff] at isConstructor
  obtain ⟨⟨function, name⟩, marked, isConstructor⟩ := isConstructor
  obtain ⟨before, head, rest, cut, levelBefore, unmarked, method, rfl, nameEq⟩ :=
    (head?_marked_eq_some_iff found).mp marked
  rw [List.append_assoc] at cut
  exact ⟨before, head, rest, _, name, cut, levelBefore, unmarked, method, isConstructor.symm,
    nameEq.symm⟩

/-- The parts of a located constructor, from the brace of its class on. -/
theorem locate?_parts {stream : TokenStream} {marker : Text} {site : ConstructorSite}
    {constructor : Constructor} {list : ParameterList} (located : stream.locate? marker = some site)
    (existing : site.constructor? = some constructor)
    (listed : constructor.parameterList = some list) :
    ∃ before head blanks opener inner closer tail,
      stream.drop (site.declaration.bodyOpen + 1) =
        before ++ (head ++ (blanks ++ opener :: (inner ++ closer :: tail))) ∧
      Level before ∧ Unmarked marker before ∧ MethodHead marker head ∧ Blank blanks ∧
      opener.kind = .openParen ∧ Level inner ∧ closer.kind.isCloser = true ∧
      list.opening =
        site.declaration.bodyOpen + 1 + before.length + head.length + blanks.length ∧
      list.closing = list.opening + 1 + inner.length ∧
      constructor.parameters = stream.parametersIn list ∧
      constructor.bodyOpen = stream.bodyOpen? (list.closing + 1) stream.length ∧
      constructor.bodyClose = constructor.bodyOpen.bind stream.matchingClose? := by
  obtain ⟨before, head, rest, function, name, cut, levelBefore, unmarked, method, rfl, nameEq⟩ :=
    locate?_head located existing
  have behindName := drop_of_drop_eq (drop_of_drop_eq cut)
  obtain ⟨blanks, opener, inner, closer, tail, behindHead, blank, opens, levelInner, closes,
    opening, closing⟩ := constructorAt_parts listed
  have constructed := constructorAt_eq function behindHead blank opens levelInner closes
  simp only [← opening, ← closing] at constructed
  rw [← nameEq, behindHead] at behindName
  subst behindName
  rw [constructed]
  exact ⟨before, head, blanks, opener, inner, closer, tail, cut, levelBefore, unmarked, method,
    blank, opens, levelInner, closes, by rw [opening, nameEq], closing, rfl, rfl, rfl⟩

/-- The head of a constructor is located in a stream that begins like one with a class. -/
theorem exists_locate?_of_head {stream other : TokenStream} {declaration : ClassDeclaration}
    {marker : Text} {before head rest : List Token}
    (found : stream.findClass? = some declaration)
    (same : other.take (declaration.bodyOpen + 1) = stream.take (declaration.bodyOpen + 1))
    (closed : openBehind 0 (other.drop (declaration.bodyOpen + 1)) = none)
    (cut : other.drop (declaration.bodyOpen + 1) = before ++ (head ++ rest))
    (levelBefore : Level before) (unmarked : Unmarked marker before)
    (method : MethodHead marker head) :
    ∃ site function name, other.locate? marker = some site ∧
      site.declaration.bodyOpen = declaration.bodyOpen ∧
      site.constructor? = some (other.constructorAt function name) ∧
      name + 1 = declaration.bodyOpen + 1 + before.length + head.length := by
  obtain ⟨again, foundAgain, bodyOpenEq⟩ := findClass?_of_closed found same closed
  rw [← bodyOpenEq] at cut ⊢
  have positive : 0 < head.length := by
    obtain ⟨function, rest, rfl, _⟩ := method.exists_cons
    simp
  obtain ⟨name, nameEq⟩ :
      ∃ name, again.bodyOpen + 1 + before.length + head.length = name + 1 :=
    ⟨again.bodyOpen + before.length + head.length, by omega⟩
  have marked := (head?_marked_eq_some_iff foundAgain).mpr ⟨before, head, rest,
    by rw [cut, List.append_assoc], levelBefore, unmarked, method, rfl, nameEq⟩
  obtain ⟨site, located, rfl⟩ := exists_locate? marker foundAgain
  have isConstructor := (locate?_eq_some_iff.mp located).2.1
  simp only [marked, Option.map_some] at isConstructor
  exact ⟨site, _, name, located, rfl, isConstructor.symm, nameEq.symm⟩

/-- A constructor is located by its parts in a stream that begins like one with a class. -/
theorem exists_locate?_of_parts {stream other : TokenStream} {declaration : ClassDeclaration}
    {marker : Text} {opener closer : Token} {before head blanks inner tail : List Token}
    (found : stream.findClass? = some declaration)
    (same : other.take (declaration.bodyOpen + 1) = stream.take (declaration.bodyOpen + 1))
    (closed : openBehind 0 (other.drop (declaration.bodyOpen + 1)) = none)
    (cut : other.drop (declaration.bodyOpen + 1) =
      before ++ (head ++ (blanks ++ opener :: (inner ++ closer :: tail))))
    (levelBefore : Level before) (unmarked : Unmarked marker before)
    (method : MethodHead marker head) (blank : Blank blanks) (opens : opener.kind = .openParen)
    (levelInner : Level inner) (closes : closer.kind.isCloser = true) :
    ∃ site constructor start,
      start = declaration.bodyOpen + 1 +
        (before ++ (head ++ (blanks ++ opener :: (inner ++ [closer])))).length ∧
      other.locate? marker = some site ∧
      site.declaration.bodyOpen = declaration.bodyOpen ∧ site.constructor? = some constructor ∧
      constructor.parameters.map Parameter.bare = readParameters inner ∧
      other.drop start = tail ∧
      constructor.bodyOpen = other.bodyOpen? start other.length ∧
      constructor.bodyClose = constructor.bodyOpen.bind other.matchingClose? := by
  obtain ⟨site, function, name, located, bodyOpenEq, isConstructor, nameEq⟩ :=
    exists_locate?_of_head found same closed cut levelBefore unmarked method
  have behindHead := drop_of_drop_eq (drop_of_drop_eq cut)
  rw [← nameEq] at behindHead
  have constructed := constructorAt_eq function behindHead blank opens levelInner closes
  simp only at constructed
  rw [constructed] at isConstructor
  have behindOpener := drop_of_drop_eq_cons behindHead
  have behindList := drop_of_drop_eq_cons behindOpener
  have present := (List.getElem?_eq_some_iff.mp (getElem?_of_drop_eq behindHead)).1
  refine ⟨site, _, _, ?_, located, bodyOpenEq, isConstructor,
    map_bare_parametersIn present behindOpener rfl levelInner, behindList, rfl, rfl⟩
  simp only [List.length_append, List.length_cons, List.length_nil]
  omega

end TokenStream

section NamedParameters

variable {earlier later : List Parameter} {new : List Dependency} {name : Text}

theorem find?_map_bare (parameters : List Parameter) (name : Text) :
    (parameters.map Parameter.bare).find? (·.name == name) =
      (parameters.find? (·.name == name)).map Parameter.bare :=
  List.find?_map

theorem countP_map_bare (parameters : List Parameter) (name : Text) :
    (parameters.map Parameter.bare).countP (·.name == name) =
      parameters.countP (·.name == name) :=
  List.countP_map

theorem find?_asParameter_eq_none (absent : ∀ dependency ∈ new, dependency.variableName ≠ name) :
    (new.map Dependency.asParameter).find? (·.name == name) = none := by
  rw [List.find?_eq_none]
  intro parameter member isNamed
  obtain ⟨dependency, inNew, rfl⟩ := List.mem_map.mp member
  exact absent dependency inNew (beq_iff_eq.mp isNamed)

theorem countP_asParameter_eq_zero (absent : ∀ dependency ∈ new, dependency.variableName ≠ name) :
    (new.map Dependency.asParameter).countP (·.name == name) = 0 := by
  rw [List.countP_eq_zero]
  intro parameter member isNamed
  obtain ⟨dependency, inNew, rfl⟩ := List.mem_map.mp member
  exact absent dependency inNew (beq_iff_eq.mp isNamed)

theorem asParameter_of_mem {dependency : Dependency} (differ : NamesDiffer new)
    (member : dependency ∈ new) :
    (new.map Dependency.asParameter).find? (·.name == dependency.variableName) =
        some dependency.asParameter ∧
      (new.map Dependency.asParameter).countP (·.name == dependency.variableName) = 1 := by
  induction new with
  | nil => simp at member
  | cons first others ih =>
      obtain ⟨apart, laterDiffer⟩ := List.pairwise_cons.mp differ
      rcases List.mem_cons.mp member with rfl | inOthers
      · have absent : ∀ other ∈ others, other.variableName ≠ dependency.variableName :=
          fun other inOthers => (apart other inOthers).symm
        have isNamed : (dependency.asParameter.name == dependency.variableName) = true :=
          beq_iff_eq.mpr rfl
        simp only [List.map_cons, List.find?_cons, List.countP_cons, isNamed,
          countP_asParameter_eq_zero absent]
        exact ⟨trivial, rfl⟩
      · have isOther : (first.asParameter.name == dependency.variableName) = false :=
          beq_eq_false_iff_ne.mpr (apart dependency inOthers)
        simp only [List.map_cons, List.find?_cons, List.countP_cons, isOther]
        exact ih laterDiffer inOthers

end NamedParameters

namespace ConstructorSite

/-- What a class has got when a plan has been carried out in it. -/
structure Grown (before : ConstructorSite) (stream : TokenStream) (plan : InjectionPlan)
    (after : ConstructorSite) (edited : TokenStream) : Prop where
  present : after.constructor?.isSome = true
  parameters : Extended plan.parameters (before.parameters.map Parameter.bare)
    (after.parameters.map Parameter.bare)
  bodied : after.isBodiless = false → before.isBodiless = false
  kept : ∀ name, before.assigns stream name = true → after.assigns edited name = true
  assigned : after.isBodiless = false → ∀ dependency ∈ plan.assignments,
    after.assigns edited dependency.variableName = true
  declared : ∀ name, stream.declaresProperty before.declaration name = true →
    edited.declaresProperty after.declaration name = true
  declares : ∀ dependency ∈ plan.properties,
    edited.declaresProperty after.declaration dependency.variableName = true

/-- The parameter that a dependency uses, and the assignment to its property. -/
structure Provides (site : ConstructorSite) (stream : TokenStream) (dependency : Dependency)
    (parameter : Parameter) : Prop where
  found : site.parameter? dependency.variableName = some parameter
  typed : ∃ type, parameter.typeName = some type ∧ sameType type dependency.className = true
  assigned : site.isBodiless = false → parameter.isPromoted = false →
    site.assigns stream dependency.variableName = true

variable {before after : ConstructorSite} {stream edited : TokenStream} {plan : InjectionPlan}
  {options : InjectionOptions} {dependencies : List Dependency}

theorem planned_absent (planned : before.plan stream options dependencies = .ok plan) {name : Text}
    {parameter : Parameter} (existing : before.parameter? name = some parameter) :
    ∀ other ∈ plan.parameters, other.variableName ≠ name := by
  intro other inNew same
  rw [(plan_eq_ok planned).1, List.mem_filter, lacksParameter, same, existing] at inNew
  exact absurd inNew.2 (by simp)

/-- A parameter that was there is found again, though new ones may stand in front of it. -/
theorem Grown.parameter?_of_existing (grown : Grown before stream plan after edited)
    (planned : before.plan stream options dependencies = .ok plan) {name : Text}
    {parameter : Parameter} (existing : before.parameter? name = some parameter) :
    ∃ found, after.parameter? name = some found ∧ found.bare = parameter.bare := by
  obtain ⟨earlier, later, known, _, _, extended⟩ := grown.parameters
  have absent := planned_absent planned existing
  have knownFound := find?_map_bare before.parameters name
  have afterFound := find?_map_bare after.parameters name
  rw [parameter?] at existing ⊢
  rw [known, existing, List.find?_append] at knownFound
  rw [extended, List.find?_append, List.find?_append, find?_asParameter_eq_none absent,
    Option.none_or, knownFound] at afterFound
  exact Option.map_eq_some_iff.mp afterFound.symm

theorem Grown.provides (grown : Grown before stream plan after edited)
    (planned : before.plan stream options dependencies = .ok plan)
    (differ : NamesDiffer dependencies) {dependency : Dependency}
    (member : dependency ∈ dependencies) :
    (before.parameters.countP (·.name == dependency.variableName) ≤ 1 →
        after.parameters.countP (·.name == dependency.variableName) = 1) ∧
      ∃ parameter, after.Provides edited dependency parameter := by
  obtain ⟨parameters, assignments, _, agree⟩ := plan_eq_ok planned
  obtain ⟨earlier, later, known, _, _, extended⟩ := grown.parameters
  have knownFound := find?_map_bare before.parameters dependency.variableName
  have afterFound := find?_map_bare after.parameters dependency.variableName
  have knownCount := countP_map_bare before.parameters dependency.variableName
  have afterCount := countP_map_bare after.parameters dependency.variableName
  rw [known] at knownFound knownCount
  rw [extended] at afterFound afterCount
  have newDiffer : NamesDiffer plan.parameters := by
    rw [parameters]
    exact List.Pairwise.filter _ differ
  have assigned (parameter : Parameter) (lacks : before.assigns stream dependency.variableName = false →
      parameter.isPromoted = false → before.lacksAssignment stream dependency = true)
      (bodied : after.isBodiless = false) (plain : parameter.isPromoted = false) :
      after.assigns edited dependency.variableName = true := by
    cases already : before.assigns stream dependency.variableName with
    | true => exact grown.kept _ already
    | false =>
        refine grown.assigned bodied dependency ?_
        rw [assignments, grown.bodied bodied]
        exact List.mem_filter.mpr ⟨member, lacks already plain⟩
  cases existing : before.parameter? dependency.variableName with
  | none =>
      have new : dependency ∈ plan.parameters := by
        rw [parameters]
        exact List.mem_filter.mpr ⟨member, by rw [lacksParameter, existing]; rfl⟩
      obtain ⟨newFound, newCount⟩ := asParameter_of_mem newDiffer new
      have noneKnown : before.parameters.countP (·.name == dependency.variableName) = 0 :=
        List.countP_eq_zero.mpr (List.find?_eq_none.mp existing)
      rw [parameter?] at existing
      rw [existing, Option.map_none, List.find?_append, Option.or_eq_none_iff] at knownFound
      rw [List.find?_append, knownFound.1, Option.none_or, List.find?_append, newFound,
        Option.some_or] at afterFound
      obtain ⟨parameter, found, isNew⟩ := Option.map_eq_some_iff.mp afterFound.symm
      rw [noneKnown, List.countP_append] at knownCount
      rw [List.countP_append, List.countP_append, newCount] at afterCount
      have typeName : parameter.typeName = some dependency.className :=
        congrArg Parameter.typeName isNew
      refine ⟨fun _ => by omega, parameter, found, ⟨_, typeName, sameType_refl _⟩,
        assigned parameter ?_⟩
      intro unassigned _
      rw [lacksAssignment, unassigned, parameter?, existing]
      rfl
  | some parameter =>
      have absent := planned_absent planned existing
      have isNamed : (parameter.name == dependency.variableName) = true := by
        rw [parameter?] at existing
        simpa using List.find?_some existing
      have someKnown : 0 < before.parameters.countP (·.name == dependency.variableName) :=
        List.countP_pos_iff.mpr ⟨parameter, List.mem_of_find?_eq_some existing, isNamed⟩
      have agreed := agree dependency member parameter existing
      obtain ⟨found, isFound, isBare⟩ := grown.parameter?_of_existing planned existing
      rw [List.countP_append] at knownCount
      rw [List.countP_append, List.countP_append, countP_asParameter_eq_zero absent] at afterCount
      have typeName := congrArg Parameter.typeName isBare
      have promoted := congrArg Parameter.isPromoted isBare
      simp only [Parameter.bare] at typeName promoted
      refine ⟨fun _ => by omega, found, isFound, by rwa [typeName], assigned found ?_⟩
      intro unassigned plain
      rw [lacksAssignment, unassigned, existing, Option.any_some, ← promoted, plain]
      rfl

theorem Grown.provides_of_distinct {request : List Dependency}
    (grown : Grown before stream plan after edited)
    (planned : before.plan stream options dependencies = .ok plan)
    (distinct : distinctDependencies request = .ok dependencies) {requested : Dependency}
    (member : requested ∈ request) :
    (before.parameters.countP (·.name == requested.variableName) ≤ 1 →
        after.parameters.countP (·.name == requested.variableName) = 1) ∧
      ∃ parameter, after.Provides edited requested parameter := by
  obtain ⟨_, represented, differ⟩ := distinctFrom_eq_ok distinct
  obtain ⟨dependency, member, sameName, isSame⟩ := represented requested member
  obtain ⟨once, parameter, found, ⟨type, typed, matching⟩, assigned⟩ :=
    grown.provides planned (differ List.Pairwise.nil) member
  rw [sameName] at once found assigned
  exact ⟨once, parameter, found, ⟨type, typed, sameType_trans matching isSame⟩, assigned⟩

end ConstructorSite

/-- Tokens that open and close as much as others do. -/
def SameDepth (left right : List Token) : Prop :=
  ∀ depth, openBehind depth left = openBehind depth right

namespace SameDepth

theorem refl (tokens : List Token) : SameDepth tokens tokens :=
  fun _ => rfl

theorem of_level {left right : List Token} (levelLeft : Level left) (levelRight : Level right) :
    SameDepth left right := by
  intro depth
  rw [levelLeft.openBehind, levelRight.openBehind]

theorem append {left right others otherRight : List Token} (first : SameDepth left right)
    (second : SameDepth others otherRight) : SameDepth (left ++ others) (right ++ otherRight) := by
  intro depth
  rw [openBehind_append, openBehind_append, first]
  congr 1
  funext between
  exact second between

end SameDepth

/-- A token outside of all delimiters. -/
def Outermost (token : Token) (tokens : List Token) : Prop :=
  ∃ before after, tokens = before ++ token :: after ∧ Level before

namespace Outermost

variable {token opener : Token} {front inner new rest tokens : List Token}

theorem of_mem (plain : PlainCode tokens) (member : token ∈ tokens) (rest : List Token) :
    Outermost token (tokens ++ rest) := by
  obtain ⟨before, after, rfl⟩ := List.append_of_mem member
  refine ⟨before, after ++ rest, by simp, PlainCode.level ?_⟩
  exact fun other inBefore => plain other (List.mem_append_left _ inBefore)

theorem prepend (outermost : Outermost token tokens) (level : Level front) :
    Outermost token (front ++ tokens) := by
  obtain ⟨before, after, rfl, levelBefore⟩ := outermost
  exact ⟨front ++ before, after, by simp, level.append levelBefore⟩

/-- What stands between delimiters can be exchanged without a change to what stands outside. -/
theorem exchange (opens : opener.kind.isOpener = true) (level : Level inner) (levelNew : Level new)
    (outermost : Outermost token (front ++ opener :: (inner ++ rest))) :
    Outermost token (front ++ opener :: (new ++ rest)) := by
  obtain ⟨before, after, cut, levelBefore⟩ := outermost
  rcases List.append_eq_append_iff.mp cut with ⟨more, rfl, later⟩ | ⟨more, rfl, later⟩
  · cases more with
    | nil =>
        rw [List.nil_append, List.cons.injEq] at later
        rw [← later.1]
        exact ⟨front, new ++ rest, rfl, by simpa using levelBefore⟩
    | cons first more =>
        rw [List.cons_append, List.cons.injEq] at later
        obtain ⟨rfl, later⟩ := later
        have shape (middle : List Token) : front ++ opener :: middle = (front ++ [opener]) ++ middle := by
          simp
        rw [shape] at levelBefore
        rcases List.append_eq_append_iff.mp later with ⟨further, rfl, rfl⟩ | ⟨further, rfl, _⟩
        · refine ⟨(front ++ [opener]) ++ (new ++ further), after, by simp, ?_⟩
          exact levelBefore.replace level levelNew
        · obtain ⟨depth, atOpener, closed⟩ := openBehind_parts levelBefore
          rw [openBehind_append, Option.bind_eq_some_iff] at atOpener
          obtain ⟨outer, _, opened⟩ := atOpener
          obtain ⟨deeper, within⟩ := level.openBehind_prefix depth
          rw [within, Option.some.injEq] at closed
          simp only [openBehind, if_pos opens, Option.some.injEq] at opened
          omega
  · cases more with
    | nil =>
        rw [List.nil_append, List.cons.injEq] at later
        rw [later.1, List.append_nil]
        exact ⟨before, new ++ rest, rfl, levelBefore⟩
    | cons first more =>
        rw [List.cons_append, List.cons.injEq] at later
        rw [later.1]
        exact ⟨before, more ++ opener :: (new ++ rest), by simp, levelBefore⟩

end Outermost

/-- A property is declared by a variable outside of all delimiters in the class. -/
theorem TokenStream.declaresProperty_iff {stream : TokenStream} {declaration : ClassDeclaration}
    {name : Text} (found : stream.findClass? = some declaration) :
    stream.declaresProperty declaration name = true ↔
      ∃ token, Outermost token (stream.drop (declaration.bodyOpen + 1)) ∧
        token.kind = .variableName ∧ Text.dropStart? ['$'] token.text = some name := by
  obtain ⟨body, closer, rest, cut, place, closes, level⟩ := findClass?_parts found
  simp only [declaresProperty, List.any_eq_true, Option.any_eq_true, Bool.and_eq_true, beq_iff_eq]
  constructor
  · rintro ⟨index, member, token, atIndex, isVariable, named⟩
    obtain ⟨before, other, after, rfl, rfl, _, levelBefore⟩ :=
      (mem_members_iff index cut place level).mp member
    have cutBefore : stream.drop (declaration.bodyOpen + 1) =
        before ++ other :: (after ++ closer :: rest) := by
      rw [cut, List.append_assoc, List.cons_append]
    rw [getElem?_of_drop_eq cutBefore, Option.some.injEq] at atIndex
    subst atIndex
    exact ⟨other, ⟨before, _, cutBefore, levelBefore⟩, isVariable, named⟩
  · rintro ⟨token, ⟨before, after, cutBefore, levelBefore⟩, isVariable, named⟩
    have noCloser : token.kind.isCloser = false := by rw [isVariable]; rfl
    obtain ⟨behind, bodyCut⟩ :=
      levelBefore.within_delimiters level closes noCloser (cutBefore.symm.trans cut)
    exact ⟨_, (mem_members_iff _ cut place level).mpr
      ⟨before, token, behind, bodyCut, rfl, noCloser, levelBefore⟩, token,
      getElem?_of_drop_eq cutBefore, isVariable, named⟩

/-- The tokens behind a parameter list, before and after assignments have come into the body. -/
inductive TailGrown (new : List Dependency) : List Token → List Token → Prop where
  | unclosed {tail : List Token} (noBody : ∀ body, ¬ MethodBody tail body) : TailGrown new tail tail
  | grown {between content blanks added rest : List Token} {brace closer : Token}
      (isBrace : brace.kind = .openBrace)
      (first : ∀ token ∈ between, token.kind ≠ .openBrace ∧ token.kind ≠ .semicolon)
      (blank : ∀ token ∈ blanks, token.kind = .whitespace) (level : Level (content ++ blanks))
      (levelGrown : Level (content ++ added)) (closes : closer.kind.isCloser = true)
      (assigns : ∀ dependency ∈ new, Assigns dependency.variableName added) :
      TailGrown new (between ++ brace :: ((content ++ blanks) ++ closer :: rest))
        (between ++ brace :: ((content ++ added) ++ closer :: rest))

namespace TailGrown

variable {new : List Dependency} {tail after : List Token}

theorem sameDepth (grown : TailGrown new tail after) : SameDepth after tail := by
  cases grown with
  | unclosed => exact SameDepth.refl tail
  | @grown between _ _ _ rest brace closer _ _ _ level levelGrown =>
      have sameBody := (SameDepth.of_level levelGrown level).append (SameDepth.refl (closer :: rest))
      exact (SameDepth.refl between).append ((SameDepth.refl [brace]).append sameBody)

theorem outermost (grown : TailGrown new tail after) {token : Token} {front : List Token}
    (outermost : Outermost token (front ++ tail)) : Outermost token (front ++ after) := by
  cases grown with
  | unclosed => exact outermost
  | grown isBrace _ _ level levelGrown =>
      rw [← List.append_assoc] at outermost ⊢
      exact outermost.exchange (by rw [isBrace]; rfl) level levelGrown

end TailGrown

/-- What the edit of a body makes of all tokens behind the parameter list. -/
theorem assignmentEdit_tail {stream : TokenStream} {constructor : Constructor} {start : Nat}
    {tail : List Token} {new : List Dependency} {indent lineEnding : Text}
    {options : InjectionOptions} {edits : List Edit} (cut : stream.drop start = tail)
    (atBody : constructor.bodyOpen = stream.bodyOpen? start stream.length)
    (atEnd : constructor.bodyClose = constructor.bodyOpen.bind stream.matchingClose?)
    (wellSpaced : WellSpaced stream) (writable : ∀ dependency ∈ new, dependency.Writable)
    (spacesIndent : Spaces indent) (spacesOption : Spaces options.indent)
    (spacesEnding : Spaces lineEnding)
    (result : assignmentEdit stream constructor new indent options lineEnding = .ok edits) :
    ∃ after, Edit.Rewrites start tail edits after ∧ TailGrown new tail after := by
  by_cases bodied : ∃ body, MethodBody tail body
  · obtain ⟨body, method⟩ := bodied
    cases method with
    | @mk between body rest brace closer isBrace first levelBody closes =>
        obtain ⟨opened, closed, behind, _⟩ := MethodBody.places cut isBrace first levelBody closes
        rw [opened] at atBody
        rw [atBody, Option.bind_some, closed] at atEnd
        obtain ⟨content, blanks, added, rfl, blank, rewrites, levelGrown, assigns⟩ :=
          assignmentEdit_rewrites atBody atEnd behind rfl levelBody wellSpaced writable spacesIndent
            spacesOption spacesEnding result
        have place : start + (between ++ [brace]).length = start + between.length + 1 := by
          simp [Nat.add_assoc]
        have whole := (rewrites.extend (closer :: rest)).prepend (between ++ [brace]) place
        simp only [List.append_assoc, List.singleton_append] at whole
        refine ⟨_, ?_, .grown isBrace first blank levelBody levelGrown closes assigns⟩
        simpa only [List.append_assoc] using whole
  · have unclosed : constructor.bodyClose = none := by
      rw [atEnd, atBody]
      exact bodyClose_eq_none cut (not_exists.mp bodied)
    rw [assignmentEdit_eq_nil (.inr unclosed) result]
    exact ⟨tail, .keep start tail, .unclosed (not_exists.mp bodied)⟩

/-- The bodies of a constructor before and after an injection: the new code stands behind the
content. -/
inductive Constructor.BodyGrown (new : List Dependency) (constructor : Constructor)
    (stream : TokenStream) (edits : List Edit) (again : Constructor) (edited : TokenStream) :
    Prop where
  | unclosed (before : constructor.bodyClose = none) (after : again.bodyClose = none)
      (same : again.bodyOpen.isSome = constructor.bodyOpen.isSome)
  | grown {opening openingAgain : Nat} {brace closer : Token}
      {content blanks added rest : List Token} (opens : constructor.bodyOpen = some opening)
      (place : openingAgain = Edit.placeAfter stream edits opening)
      (closes : constructor.bodyClose = some (opening + 1 + (content ++ blanks).length))
      (cut : stream.drop opening = brace :: ((content ++ blanks) ++ closer :: rest))
      (opensAgain : again.bodyOpen = some openingAgain)
      (closesAgain : again.bodyClose = some (openingAgain + 1 + (content ++ added).length))
      (cutAgain : edited.drop openingAgain = brace :: ((content ++ added) ++ closer :: rest))
      (isCloser : closer.kind.isCloser = true)
      (blank : ∀ token ∈ blanks, token.kind = .whitespace)
      (assigns : ∀ dependency ∈ new, Assigns dependency.variableName added)

theorem TailGrown.bodyGrown {new : List Dependency} {stream edited : TokenStream}
    {constructor again : Constructor} {edits : List Edit} {start startAgain : Nat}
    (moved : ∀ offset, constructor.bodyOpen = some (start + offset) →
      startAgain + offset = Edit.placeAfter stream edits (start + offset))
    (atBody : constructor.bodyOpen = stream.bodyOpen? start stream.length)
    (atEnd : constructor.bodyClose = constructor.bodyOpen.bind stream.matchingClose?)
    (atBodyAgain : again.bodyOpen = edited.bodyOpen? startAgain edited.length)
    (atEndAgain : again.bodyClose = again.bodyOpen.bind edited.matchingClose?)
    (grown : TailGrown new (stream.drop start) (edited.drop startAgain)) :
    constructor.BodyGrown new stream edits again edited := by
  generalize cut : stream.drop start = tail at grown
  generalize cutAgain : edited.drop startAgain = after at grown
  cases grown with
  | unclosed noBody =>
      refine .unclosed ?_ ?_ ?_
      · rw [atEnd, atBody]
        exact bodyClose_eq_none cut noBody
      · rw [atEndAgain, atBodyAgain]
        exact bodyClose_eq_none cutAgain noBody
      · rw [atBody, atBodyAgain, Bool.eq_iff_iff, TokenStream.isSome_bodyOpen?_iff,
          TokenStream.isSome_bodyOpen?_iff, cut, cutAgain]
  | grown isBrace first blank level levelGrown closes assigns =>
      obtain ⟨opened, closed, _⟩ := MethodBody.places cut isBrace first level closes
      obtain ⟨openedAgain, closedAgain, _⟩ :=
        MethodBody.places cutAgain isBrace first levelGrown closes
      rw [opened] at atBody
      rw [openedAgain] at atBodyAgain
      rw [atBody, Option.bind_some, closed] at atEnd
      rw [atBodyAgain, Option.bind_some, closedAgain] at atEndAgain
      exact .grown atBody (moved _ atBody) atEnd (TokenStream.drop_of_drop_eq cut) atBodyAgain
        atEndAgain (TokenStream.drop_of_drop_eq cutAgain) closes blank assigns

/-- A class whose constructor can be read: its parameter list is there, and every item in it is a
parameter. -/
def ConstructorSite.Readable (site : ConstructorSite) (stream : TokenStream) : Prop :=
  ∀ constructor ∈ site.constructor?, ∃ list, constructor.parameterList = some list ∧
    ∀ item ∈ stream.splitTopLevel list.inner,
      (stream.parameterIn? (stream.trimTrivia item)).isSome = true

section Carried

variable {stream : TokenStream} {site : ConstructorSite} {plan : InjectionPlan}
  {options : InjectionOptions} {edits : List Edit}

theorem headEdit_rewrites {declaration : ClassDeclaration} {blocks : List Text} {lineEnding : Text}
    {edit : Edit} (result : headEdit stream declaration blocks lineEnding = .ok edit) :
    ∃ tokens, generate (classHeadText stream declaration blocks lineEnding) = .ok tokens ∧
      Edit.Rewrites (declaration.bodyOpen + 1) [] [edit] tokens := by
  obtain ⟨tokens, generated, rest⟩ := exists_of_bind_eq_ok result
  cases rest
  have rewrites := Edit.Rewrites.insertion (declaration.bodyOpen + 1) [] tokens []
  rw [List.append_nil, List.append_nil] at rewrites
  exact ⟨tokens, generated, rewrites⟩

/-- The edits of a class that has a constructor, part by part. -/
theorem planEdits_parts {constructor : Constructor} (existing : site.constructor? = some constructor)
    (result : planEdits stream site plan options = .ok edits) :
    let indent := (stream.indentBefore? constructor.start).getD options.indent
    let lineEnding := stream.lineEnding
    ∃ headEdits listEdits bodyEdits, edits = headEdits ++ (listEdits ++ bodyEdits) ∧
      (plan.properties = [] ∧ headEdits = [] ∨ ∃ edit, headEdits = [edit] ∧ plan.properties ≠ [] ∧
        headEdit stream site.declaration (plan.properties.map (·.propertyText indent lineEnding))
          lineEnding = .ok edit) ∧
      parameterEdit stream constructor plan.parameters indent options lineEnding = .ok listEdits ∧
      assignmentEdit stream constructor plan.assignments indent options lineEnding =
        .ok bodyEdits := by
  unfold planEdits at result
  simp only [existing] at result
  split at result
  next none =>
    obtain ⟨headEdits, noEdits, result⟩ := exists_of_bind_eq_ok result
    obtain ⟨listEdits, listResult, result⟩ := exists_of_bind_eq_ok result
    obtain ⟨bodyEdits, bodyResult, result⟩ := exists_of_bind_eq_ok result
    cases noEdits
    cases result
    exact ⟨[], listEdits, bodyEdits, rfl, .inl ⟨List.isEmpty_iff.mp none, rfl⟩, listResult,
      bodyResult⟩
  next nonempty =>
    obtain ⟨edit, headResult, result⟩ := exists_of_bind_eq_ok result
    obtain ⟨headEdits, oneEdit, result⟩ := exists_of_bind_eq_ok result
    obtain ⟨listEdits, listResult, result⟩ := exists_of_bind_eq_ok result
    obtain ⟨bodyEdits, bodyResult, result⟩ := exists_of_bind_eq_ok result
    cases oneEdit
    cases result
    refine ⟨[edit], listEdits, bodyEdits, by simp, .inr ⟨edit, rfl, ?_, headResult⟩, listResult,
      bodyResult⟩
    simpa using nonempty

/-- The declarations of properties are code without delimiters at the head of the class. -/
theorem properties_rewrites {declaration : ClassDeclaration} {indent lineEnding : Text}
    {headEdits : List Edit} (writable : ∀ dependency ∈ plan.properties, dependency.Writable)
    (spacesIndent : Spaces indent) (spacesEnding : Spaces lineEnding)
    (headed : plan.properties = [] ∧ headEdits = [] ∨ ∃ edit, headEdits = [edit] ∧
      plan.properties ≠ [] ∧ headEdit stream declaration
        (plan.properties.map (·.propertyText indent lineEnding)) lineEnding = .ok edit) :
    ∃ properties, Edit.Rewrites (declaration.bodyOpen + 1) [] headEdits properties ∧
      PlainCode properties ∧
      ∀ dependency ∈ plan.properties, dependency.variableToken ∈ properties := by
  rcases headed with ⟨none, rfl⟩ | ⟨edit, rfl, nonempty, headResult⟩
  · exact ⟨[], .keep _ [], by simp [PlainCode], by simp [none]⟩
  · obtain ⟨tokens, generated, rewrites⟩ := headEdit_rewrites headResult
    obtain ⟨front, blanks, rfl, plain, declares, white⟩ :=
      properties_of_generate writable nonempty spacesIndent spacesEnding generated
    refine ⟨_, rewrites, ?_, fun dependency member =>
      List.mem_append_left _ (declares dependency member)⟩
    rw [List.append_cons]
    exact (plain.append plainSemicolon).append (Blank.of_whitespace white).plainCode

/-- A constructor without a parameter list has none after an injection either. -/
theorem planEdits_unlisted {constructor : Constructor}
    (located : stream.locate? options.marker = some site)
    (existing : site.constructor? = some constructor) (unlisted : constructor.parameterList = none)
    (wellSpaced : WellSpaced stream) (spacesOption : Spaces options.indent)
    (writableProperties : ∀ dependency ∈ plan.properties, dependency.Writable)
    (result : planEdits stream site plan options = .ok edits) :
    ∃ edited after again, Edit.applyAll edits stream = .ok edited ∧
      edited.locate? options.marker = some after ∧ after.constructor? = some again ∧
      again.bodyOpen = none := by
  obtain ⟨before, head, rest, function, name, cut, levelBefore, unmarked, method, rfl, nameEq⟩ :=
    TokenStream.locate?_head located existing
  obtain ⟨found, _⟩ := TokenStream.locate?_eq_some_iff.mp located
  have behindName := TokenStream.drop_of_drop_eq (TokenStream.drop_of_drop_eq cut)
  rw [← nameEq] at behindName
  obtain ⟨headEdits, listEdits, bodyEdits, rfl, headed, listResult, bodyResult⟩ :=
    planEdits_parts existing result
  have noListEdits : listEdits = [] := by
    rw [parameterEdit] at listResult
    simp only [unlisted] at listResult
    cases listResult
    rfl
  rw [noListEdits, assignmentEdit_eq_nil (.inl (TokenStream.bodyOpen_eq_none_of_unlisted unlisted))
    bodyResult, List.append_nil, List.append_nil]
  obtain ⟨properties, headRewrites, plain, _⟩ := properties_rewrites writableProperties
    (wellSpaced.indentOr _ spacesOption) (spaces_lineEnding stream) headed
  have inside : site.declaration.bodyOpen + 1 ≤ stream.length := TokenStream.bodyOpen_lt_length found
  have takenPlace := List.length_take_of_le inside
  have whole := (headRewrites.extend (before ++ (head ++ rest))).prepend
    (stream.take (site.declaration.bodyOpen + 1)) (by rw [takenPlace, Nat.zero_add])
  rw [List.nil_append, ← cut, List.take_append_drop, cut] at whole
  have cutAgain : (stream.take (site.declaration.bodyOpen + 1) ++
      (properties ++ (before ++ (head ++ rest)))).drop (site.declaration.bodyOpen + 1) =
        properties ++ (before ++ (head ++ rest)) :=
    List.drop_left' takenPlace
  have closed : openBehind 0 (properties ++ (before ++ (head ++ rest))) = none := by
    rw [openBehind_append, plain.level, Option.bind_some, ← cut]
    exact TokenStream.openBehind_eq_none_of_findClass? found
  obtain ⟨after, functionAgain, nameAgain, locatedAfter, bodyOpenAgain, existingAgain,
    nameAgainEq⟩ := TokenStream.exists_locate?_of_head found (List.take_left' takenPlace)
      (by rw [cutAgain]; exact closed) (by rw [cutAgain, ← List.append_assoc])
      (plain.level.append levelBefore)
      (Unmarked.append (fun token member => (plain token member).2.2) plain.level unmarked) method
  refine ⟨_, after, _, whole.applyAll, locatedAfter, existingAgain,
    TokenStream.bodyOpen_eq_none_of_unlisted ?_⟩
  have behindAgain := TokenStream.drop_of_drop_eq (TokenStream.drop_of_drop_eq
    (cutAgain.trans (List.append_assoc _ _ _).symm))
  rw [← nameAgainEq] at behindAgain
  rw [Option.eq_none_iff_forall_ne_some]
  intro list listed
  obtain ⟨blanks, opener, inner, closer, tail, behindHead, blank, opens, level, closes, _⟩ :=
    TokenStream.constructorAt_parts listed
  have constructed := TokenStream.constructorAt_eq function
    (behindName.trans (behindAgain.symm.trans behindHead)) blank opens level closes
  rw [constructed] at unlisted
  contradiction

/-- An injection finds the constructor of a class again, with more parameters and a longer body. -/
theorem planEdits_existing {constructor : Constructor} {list : ParameterList}
    (located : stream.locate? options.marker = some site)
    (existing : site.constructor? = some constructor)
    (listed : constructor.parameterList = some list) (wellSpaced : WellSpaced stream)
    (spacesOption : Spaces options.indent)
    (writableProperties : ∀ dependency ∈ plan.properties, dependency.Writable)
    (writableParameters : ∀ dependency ∈ plan.parameters, dependency.Writable)
    (writableAssignments : ∀ dependency ∈ plan.assignments, dependency.Writable)
    (result : planEdits stream site plan options = .ok edits) :
    ∃ edited after again, Edit.applyAll edits stream = .ok edited ∧
      edited.locate? options.marker = some after ∧ after.constructor? = some again ∧
      (site.Readable stream → Extended plan.parameters (constructor.parameters.map Parameter.bare)
        (again.parameters.map Parameter.bare)) ∧
      constructor.BodyGrown plan.assignments stream edits again edited ∧
      (∀ token, Outermost token (stream.drop (site.declaration.bodyOpen + 1)) →
        Outermost token (edited.drop (after.declaration.bodyOpen + 1))) ∧
      ∀ dependency ∈ plan.properties,
        Outermost dependency.variableToken (edited.drop (after.declaration.bodyOpen + 1)) := by
  obtain ⟨before, head, blanks, opener, inner, closer, tail, cut, levelBefore, unmarked, method,
    blank, opens, levelInner, closes, opening, closing, parameters, atBody, atEnd⟩ :=
    TokenStream.locate?_parts located existing listed
  have behindHead := TokenStream.drop_of_drop_eq (TokenStream.drop_of_drop_eq cut)
  have behindOpener := TokenStream.drop_of_drop_eq_cons behindHead
  have behindList := TokenStream.drop_of_drop_eq_cons behindOpener
  have atOpener := TokenStream.getElem?_of_drop_eq behindHead
  rw [← opening] at behindOpener behindList atOpener
  rw [← closing] at behindList
  have present : list.opening < stream.length := (List.getElem?_eq_some_iff.mp atOpener).1
  obtain ⟨headEdits, listEdits, bodyEdits, rfl, headed, listResult, bodyResult⟩ :=
    planEdits_parts existing result
  have spacesEnding := spaces_lineEnding stream
  have spacesIndent := wellSpaced.indentOr constructor.start spacesOption
  obtain ⟨properties, headRewrites, plain, declares⟩ :=
    properties_rewrites writableProperties spacesIndent spacesEnding headed
  obtain ⟨grownInner, listRewrites, levelGrown, extended⟩ :=
    parameterEdit_rewrites listed parameters present behindOpener closing levelInner wellSpaced
      writableParameters spacesIndent spacesOption spacesEnding listResult
  obtain ⟨grownTail, bodyRewrites, tailGrown⟩ := assignmentEdit_tail behindList atBody atEnd
    wellSpaced writableAssignments spacesIndent spacesOption spacesEnding bodyResult
  let start := site.declaration.bodyOpen + 1
  let front := before ++ (head ++ (blanks ++ [opener]))
  have frontPlace : start + front.length = list.opening + 1 := by
    simp only [start, front, List.length_append, List.length_singleton]
    omega
  have takenPlace : 0 + (stream.take start).length = start := by
    rw [List.length_take]
    omega
  have shape (inner tail : List Token) : front ++ (inner ++ ([closer] ++ tail)) =
      before ++ (head ++ (blanks ++ opener :: (inner ++ closer :: tail))) := by
    simp only [front, List.append_assoc, List.cons_append, List.nil_append]
  have upToList := (headRewrites.append ((listRewrites.extend [closer]).prepend front frontPlace)
    rfl).prepend (stream.take start) takenPlace
  rw [List.nil_append] at upToList
  obtain ⟨known, isKnown⟩ :
      ∃ known, known = stream.take start ++ (front ++ (inner ++ [closer])) := ⟨_, rfl⟩
  rw [← isKnown] at upToList
  have knownPlace : known.length = list.closing + 1 := by
    rw [isKnown]
    simp only [List.length_append, List.length_singleton] at takenPlace frontPlace ⊢
    omega
  have streamCut : known ++ tail = stream := by
    rw [isKnown]
    simp only [List.append_assoc]
    rw [shape, ← cut, List.take_append_drop]
  have whole := upToList.append bodyRewrites (by rw [knownPlace, Nat.zero_add])
  have inOrder := (whole.inOrder List.drop_zero (Nat.zero_le _)).1
  rw [streamCut] at whole inOrder
  simp only [List.append_assoc] at whole
  rw [shape] at whole
  have same : SameDepth (properties ++ (front ++ (grownInner ++ ([closer] ++ grownTail))))
      (front ++ (inner ++ ([closer] ++ tail))) :=
    (SameDepth.of_level plain.level Level.nil).append
      ((SameDepth.refl front).append ((SameDepth.of_level levelGrown levelInner).append
        ((SameDepth.refl [closer]).append tailGrown.sameDepth)))
  obtain ⟨found, _⟩ := TokenStream.locate?_eq_some_iff.mp located
  have closed : openBehind 0
      (properties ++ (before ++ (head ++ (blanks ++ opener :: (grownInner ++ closer :: grownTail))))) =
        none := by
    rw [← shape, same, shape, ← cut]
    exact TokenStream.openBehind_eq_none_of_findClass? found
  have unmarkedGrown : Unmarked options.marker (properties ++ before) :=
    Unmarked.append (fun token member => (plain token member).2.2) plain.level unmarked
  rw [Nat.zero_add] at takenPlace
  have cutAgain : (stream.take start ++ (properties ++ (before ++ (head ++ (blanks ++ opener ::
      (grownInner ++ closer :: grownTail)))))).drop start = properties ++ (before ++ (head ++
        (blanks ++ opener :: (grownInner ++ closer :: grownTail)))) :=
    List.drop_left' takenPlace
  obtain ⟨after, again, startAgain, placeAgain, locatedAfter, bodyOpenAgain, existingAgain,
    parametersAgain, tailAgain, atBodyAgain, atEndAgain⟩ :=
    TokenStream.exists_locate?_of_parts found (List.take_left' takenPlace)
      (by rw [cutAgain]; exact closed) (by rw [cutAgain, ← List.append_assoc])
      (plain.level.append levelBefore) unmarkedGrown method blank opens levelGrown closes
  refine ⟨_, after, again, whole.applyAll, locatedAfter, existingAgain, ?_, ?_, ?_, ?_⟩
  · intro readable
    obtain ⟨_, listedAgain, readItems⟩ := readable constructor existing
    rw [listed, Option.some.injEq] at listedAgain
    subst listedAgain
    rw [parametersAgain, parameters]
    exact extended readItems
  · rw [← behindList, ← tailAgain] at tailGrown
    refine TailGrown.bodyGrown ?_ atBody atEnd atBodyAgain atEndAgain tailGrown
    intro offset opened
    have behind : ∀ edit ∈ bodyEdits, known.length + offset < edit.range.stop := by
      intro edit member
      have proper := (inOrder.proper edit (List.mem_append_right _ member)).1
      have behindBrace := assignmentEdit_behindBrace opened (by rw [atEnd, opened]; rfl) bodyResult
        edit member
      omega
    have inside : offset ≤ tail.length := by
      obtain ⟨between, _, _, bodyCut, place, _⟩ :=
        TokenStream.bodyOpen?_eq_some_iff.mp (atBody.symm.trans opened)
      have size := congrArg List.length (behindList.symm.trans bodyCut)
      rw [List.length_append] at size
      omega
    have moved := upToList.placeAfter_eq behind inside
    rw [streamCut, knownPlace, List.append_assoc] at moved
    rw [moved, placeAgain]
    simp only [front, start, List.length_append, List.length_cons, List.length_nil] at takenPlace ⊢
    omega
  · intro token outermost
    rw [bodyOpenAgain, cutAgain]
    refine Outermost.prepend ?_ plain.level
    have opensList : opener.kind.isOpener = true := by rw [opens]; rfl
    have listShape (inner tail : List Token) : before ++ (head ++ (blanks ++ opener ::
        (inner ++ closer :: tail))) = (before ++ (head ++ blanks)) ++ opener ::
          (inner ++ (closer :: tail)) := by
      simp only [List.append_assoc]
    have tailShape (tail : List Token) : before ++ (head ++ (blanks ++ opener ::
        (grownInner ++ closer :: tail))) = (before ++ (head ++ (blanks ++ opener ::
          (grownInner ++ [closer])))) ++ tail := by
      simp only [List.append_assoc, List.cons_append, List.nil_append]
    rw [cut, listShape] at outermost
    have exchanged := outermost.exchange opensList levelInner levelGrown
    rw [← listShape, tailShape] at exchanged
    rw [tailShape]
    exact tailGrown.outermost exchanged
  · intro dependency member
    rw [bodyOpenAgain, cutAgain]
    exact Outermost.of_mem plain (declares dependency member) _

/-- In a stream whose delimiters match, a class that can be read has what is asked for after an
injection. -/
theorem grown_of_existing {constructor : Constructor}
    (located : stream.locate? options.marker = some site)
    (existing : site.constructor? = some constructor) (level : Level stream)
    (wellSpaced : WellSpaced stream) (readable : site.Readable stream)
    (spacesOption : Spaces options.indent)
    (writableProperties : ∀ dependency ∈ plan.properties, dependency.Writable)
    (writableParameters : ∀ dependency ∈ plan.parameters, dependency.Writable)
    (writableAssignments : ∀ dependency ∈ plan.assignments, dependency.Writable)
    (result : planEdits stream site plan options = .ok edits) :
    ∃ edited after, Edit.applyAll edits stream = .ok edited ∧
      edited.locate? options.marker = some after ∧ site.Grown stream plan after edited := by
  obtain ⟨list, listed, _⟩ := readable constructor existing
  obtain ⟨edited, after, again, applied, locatedAfter, existingAgain, extended, grown, outermost,
    declares⟩ := planEdits_existing located existing listed wellSpaced spacesOption
      writableProperties writableParameters writableAssignments result
  have found := (TokenStream.locate?_eq_some_iff.mp located).1
  have foundAgain := (TokenStream.locate?_eq_some_iff.mp locatedAfter).1
  have isBodiless : site.isBodiless = constructor.bodyOpen.isNone := by
    rw [ConstructorSite.isBodiless, existing, Option.any_some]
  have isBodilessAgain : after.isBodiless = again.bodyOpen.isNone := by
    rw [ConstructorSite.isBodiless, existingAgain, Option.any_some]
  obtain ⟨bodied, kept, assigned⟩ : (after.isBodiless = false → site.isBodiless = false) ∧
      (∀ name, site.assigns stream name = true → after.assigns edited name = true) ∧
      (after.isBodiless = false → ∀ dependency ∈ plan.assignments,
        after.assigns edited dependency.variableName = true) := by
    rw [isBodiless, isBodilessAgain]
    cases grown with
    | unclosed unclosed _ same =>
        have noBody : constructor.bodyOpen.isSome = false := by
          rw [Bool.eq_false_iff]
          intro opened
          obtain ⟨opening, opens⟩ := Option.isSome_iff_exists.mp opened
          obtain ⟨_, _, _, _, _, _, _, _, _, _, _, _, _, _, _, _, _, _, atBody, atEnd⟩ :=
            TokenStream.locate?_parts located existing listed
          have closes := TokenStream.isSome_matchingClose?_of_bodyOpen? level
            (atBody.symm.trans opens)
          rw [opens, Option.bind_some] at atEnd
          rw [← atEnd, unclosed] at closes
          contradiction
        rw [noBody] at same
        rw [Option.isSome_eq_false_iff] at same noBody
        rw [same, noBody]
        refine ⟨id, ?_, by simp⟩
        intro name assigns
        rw [ConstructorSite.assigns, existing, Option.bind_some, Option.bind_some, unclosed]
          at assigns
        split at assigns <;> contradiction
    | grown opens _ closes cut opensAgain closesAgain cutAgain isCloser blank assigns =>
        have known := TokenStream.assigns_iff_of_cut existing opens closes cut isCloser
        have now :=
          TokenStream.assigns_iff_of_cut existingAgain opensAgain closesAgain cutAgain isCloser
        rw [opens]
        refine ⟨fun _ => rfl, ?_, ?_⟩
        · intro name already
          exact (now name).mpr ((((known name).mp already).of_blanks blank).append_right _)
        · intro _ dependency member
          exact (now _).mpr ((assigns dependency member).append_left _)
  refine ⟨edited, after, applied, locatedAfter, ⟨by rw [existingAgain]; rfl, ?_, bodied,
    kept, assigned, ?_, ?_⟩⟩
  · rw [ConstructorSite.parameters, ConstructorSite.parameters, existing, existingAgain]
    exact extended readable
  · intro name already
    obtain ⟨token, isOutermost, isVariable, named⟩ :=
      (TokenStream.declaresProperty_iff found).mp already
    exact (TokenStream.declaresProperty_iff foundAgain).mpr
      ⟨token, outermost token isOutermost, isVariable, named⟩
  · intro dependency member
    exact (TokenStream.declaresProperty_iff foundAgain).mpr
      ⟨dependency.variableToken, declares dependency member, rfl, rfl⟩

/-- A class without a constructor gets one, all of it in new code. -/
theorem planEdits_new (located : stream.locate? options.marker = some site)
    (absent : site.constructor? = none) (marker : options.marker = defaultMarker)
    (nonempty : plan.parameters ≠ []) (spacesOption : Spaces options.indent)
    (writableProperties : ∀ dependency ∈ plan.properties, dependency.Writable)
    (writableParameters : ∀ dependency ∈ plan.parameters, dependency.Writable)
    (writableAssignments : ∀ dependency ∈ plan.assignments, dependency.Writable)
    (result : planEdits stream site plan options = .ok edits) :
    ∃ (new : List Token) (edited : TokenStream) (after : ConstructorSite) (again : Constructor)
      (closing : Nat),
      edited = stream.take (site.declaration.bodyOpen + 1) ++
        (new ++ stream.drop (site.declaration.bodyOpen + 1)) ∧
      Edit.applyAll edits stream = .ok edited ∧ edited.locate? options.marker = some after ∧
      after.constructor? = some again ∧ again.bodyClose = some closing ∧
      closing < site.declaration.bodyOpen + 1 + new.length ∧
      site.Grown stream plan after edited := by
  unfold planEdits at result
  simp only [absent] at result
  obtain ⟨edit, headResult, result⟩ := exists_of_bind_eq_ok result
  cases result
  obtain ⟨tokens, generated, rewrites⟩ := headEdit_rewrites headResult
  have parts := constructorTokens_of_generate writableProperties writableParameters
    writableAssignments nonempty marker spacesOption (spaces_lineEnding stream) generated
  obtain ⟨found, _⟩ := TokenStream.locate?_eq_some_iff.mp located
  have inside : site.declaration.bodyOpen + 1 ≤ stream.length := TokenStream.bodyOpen_lt_length found
  have takenPlace := List.length_take_of_le inside
  have whole := (rewrites.extend (stream.drop (site.declaration.bodyOpen + 1))).prepend
    (stream.take (site.declaration.bodyOpen + 1)) (by rw [takenPlace, Nat.zero_add])
  rw [List.nil_append, List.take_append_drop] at whole
  obtain ⟨edited, isEdited⟩ : ∃ edited, edited = stream.take (site.declaration.bodyOpen + 1) ++
      (tokens ++ stream.drop (site.declaration.bodyOpen + 1)) := ⟨_, rfl⟩
  rw [← isEdited] at whole
  have same : edited.take (site.declaration.bodyOpen + 1) =
      stream.take (site.declaration.bodyOpen + 1) := by
    rw [isEdited]
    exact List.take_left' takenPlace
  have cutAgain : edited.drop (site.declaration.bodyOpen + 1) =
      tokens ++ stream.drop (site.declaration.bodyOpen + 1) := by
    rw [isEdited]
    exact List.drop_left' takenPlace
  have closed : Level tokens → openBehind 0 (edited.drop (site.declaration.bodyOpen + 1)) = none := by
    intro level
    rw [cutAgain, openBehind_append, level, Option.bind_some]
    exact TokenStream.openBehind_eq_none_of_findClass? found
  cases parts with
  | @mk front head list between body behind plain declares method series blank nestedBody
      assignsBody white =>
      have levelBody := nestedBody.level
      rw [← marker] at method
      let tail := between ++ ⟨.openBrace, ['\x7b'], 0⟩ :: (body ++ ⟨.closeBrace, ['\x7d'], 0⟩ ::
        (behind ++ stream.drop (site.declaration.bodyOpen + 1)))
      have levelList : Level (⟨.openParen, ['('], 0⟩ :: list ++ [⟨.closeParen, [')'], 0⟩]) :=
        Level.pair rfl rfl series.plainCode.level
      have levelBraces : Level (⟨.openBrace, ['\x7b'], 0⟩ :: body ++ [⟨.closeBrace, ['\x7d'], 0⟩]) :=
        Level.pair rfl rfl levelBody
      have levelNew := plain.level.append (method.level.append (levelList.append
        (blank.level.append (levelBraces.append (Blank.of_whitespace white).level))))
      simp only [List.append_assoc, List.cons_append, List.nil_append] at levelNew
      have cut : edited.drop (site.declaration.bodyOpen + 1) = front ++ (head ++ ([] ++
          ⟨.openParen, ['('], 0⟩ :: (list ++ ⟨.closeParen, [')'], 0⟩ :: tail))) := by
        rw [cutAgain]
        simp [tail]
      have first : ∀ token ∈ between, token.kind ≠ .openBrace ∧ token.kind ≠ .semicolon := by
        intro token member
        have trivia := blank token member
        rw [Token.isTrivia] at trivia
        constructor <;> intro isKind <;> rw [isKind] at trivia <;> contradiction
      obtain ⟨after, again, startAgain, _, locatedAfter, bodyOpenAgain, existingAgain,
        parametersAgain, tailAgain, atBodyAgain, atEndAgain⟩ :=
        TokenStream.exists_locate?_of_parts found same (closed levelNew) cut plain.level
          (Unmarked.of_noFunction fun token member => (plain token member).2.2) method
          (by simp [Blank]) rfl series.plainCode.level rfl
      obtain ⟨opened, closedAgain, _⟩ := MethodBody.places tailAgain rfl first levelBody rfl
      have assigns := TokenStream.assigns_iff_of_body existingAgain atBodyAgain atEndAgain
        (by rw [tailAgain]; exact .mk rfl first levelBody rfl)
      have foundAgain := (TokenStream.locate?_eq_some_iff.mp locatedAfter).1
      rw [atBodyAgain, opened, Option.bind_some, closedAgain] at atEndAgain
      refine ⟨_, edited, after, again, _, isEdited, whole.applyAll, locatedAfter, existingAgain,
        atEndAgain, ?_,
        ⟨by rw [existingAgain]; rfl, ?_, ?_, ?_, ?_, ?_, ?_⟩⟩
      · have size := congrArg List.length tailAgain
        have total := congrArg List.length isEdited
        simp only [tail, List.length_drop, List.length_append, List.length_cons, takenPlace]
          at size total ⊢
        omega
      · rw [ConstructorSite.parameters, ConstructorSite.parameters, absent, existingAgain]
        refine ⟨[], [], rfl, by simp, by simp, ?_⟩
        rw [parametersAgain, series.readParameters writableParameters]
        simp
      · intro _
        rw [ConstructorSite.isBodiless, absent]
        rfl
      · intro name already
        rw [ConstructorSite.assigns, absent] at already
        contradiction
      · intro _ dependency member
        exact (assigns _).mpr (assignsBody dependency member)
      · intro name already
        obtain ⟨token, outermost, isVariable, named⟩ :=
          (TokenStream.declaresProperty_iff found).mp already
        refine (TokenStream.declaresProperty_iff foundAgain).mpr ⟨token, ?_, isVariable, named⟩
        rw [bodyOpenAgain, cutAgain]
        exact outermost.prepend levelNew
      · intro dependency member
        refine (TokenStream.declaresProperty_iff foundAgain).mpr
          ⟨dependency.variableToken, ?_, rfl, rfl⟩
        rw [bodyOpenAgain, cut]
        exact Outermost.of_mem plain (declares dependency member) _

theorem parameters_ne_nil_of_absent {dependencies : List Dependency}
    (planned : site.plan stream options dependencies = .ok plan) (nonempty : dependencies ≠ [])
    (absent : site.constructor? = none) : plan.parameters ≠ [] := by
  have lacks : ∀ dependency ∈ dependencies, site.lacksParameter dependency = true := by
    intro dependency _
    rw [ConstructorSite.lacksParameter, ConstructorSite.parameter?, ConstructorSite.parameters, absent]
    rfl
  rw [(ConstructorSite.plan_eq_ok planned).1, List.filter_eq_self.mpr lacks]
  exact nonempty

/-- What is valid and fully qualified can be written into code, and no request comes to nothing. -/
theorem distinctDependencies_writable {request dependencies : List Dependency}
    (distinct : distinctDependencies request = .ok dependencies)
    (qualified : ∀ dependency ∈ request, dependency.className.head? = some '\\') :
    (∀ dependency ∈ dependencies, dependency.Writable) ∧ (request ≠ [] → dependencies ≠ []) := by
  obtain ⟨_, represented, _⟩ := distinctFrom_eq_ok distinct
  refine ⟨?_, ?_⟩
  · intro dependency member
    obtain ⟨requested, valid⟩ := requested_of_distinctDependencies distinct dependency member
    exact Dependency.writable_of_isValid valid (qualified dependency requested)
  · intro nonempty
    obtain ⟨first, rest, rfl⟩ := List.exists_cons_of_ne_nil nonempty
    obtain ⟨dependency, member, _⟩ := represented first (by simp)
    exact List.ne_nil_of_mem member

theorem grown_of_isEmpty {dependencies : List Dependency}
    (planned : site.plan stream options dependencies = .ok plan) (nonempty : dependencies ≠ [])
    (isEmpty : plan.isEmpty = true) : site.Grown stream plan site stream := by
  simp only [InjectionPlan.isEmpty, Bool.and_eq_true, List.isEmpty_iff] at isEmpty
  obtain ⟨⟨⟨noParameters, noAssignments⟩, noProperties⟩, _⟩ := isEmpty
  refine ⟨?_, by rw [noParameters]; exact .nil _, fun bodied => bodied, fun _ already => already,
    by simp [noAssignments], fun _ already => already, by simp [noProperties]⟩
  cases existing : site.constructor? with
  | none => exact absurd noParameters (parameters_ne_nil_of_absent planned nonempty existing)
  | some constructor => rfl

/-- An injection carries out a plan for the dependencies that were asked for. -/
theorem inject_grown {request : List Dependency} {injected : Injected}
    (located : stream.locate? options.marker = some site) (marker : options.marker = defaultMarker)
    (level : Level stream) (wellSpaced : WellSpaced stream) (readable : site.Readable stream)
    (spacesOption : Spaces options.indent) (nonempty : request ≠ [])
    (qualified : ∀ dependency ∈ request, dependency.className.head? = some '\\')
    (result : inject stream site request options = .ok injected) :
    ∃ dependencies plan after, distinctDependencies request = .ok dependencies ∧
      site.plan stream options dependencies = .ok plan ∧ injected.added = plan.parameters ∧
      injected.stream.locate? options.marker = some after ∧
      site.Grown stream plan after injected.stream := by
  obtain ⟨dependencies, distinct, result⟩ := exists_of_bind_eq_ok result
  obtain ⟨plan, planned, result⟩ := exists_of_bind_eq_ok result
  refine ⟨dependencies, plan, ?_⟩
  obtain ⟨writable, someDependency⟩ := distinctDependencies_writable distinct qualified
  have someDependency := someDependency nonempty
  obtain ⟨writableParameters, writableAssignments, writableProperties⟩ :=
    ConstructorSite.forall_mem_planned planned writable
  split at result
  next isEmpty =>
    cases result
    have isEmptyParts := isEmpty
    simp only [InjectionPlan.isEmpty, Bool.and_eq_true, List.isEmpty_iff] at isEmptyParts
    exact ⟨site, distinct, planned, isEmptyParts.1.1.1.symm, located,
      grown_of_isEmpty planned someDependency isEmpty⟩
  next =>
    obtain ⟨edits, planResult, result⟩ := exists_of_bind_eq_ok result
    obtain ⟨edited, applied, result⟩ := exists_of_bind_eq_ok result
    cases result
    have applied := eq_ok_of_mapError applied
    obtain ⟨carried, after, appliedAgain, locatedAfter, grown⟩ : ∃ carried after,
        Edit.applyAll edits stream = .ok carried ∧
          carried.locate? options.marker = some after ∧ site.Grown stream plan after carried := by
      cases existing : site.constructor? with
      | none =>
          obtain ⟨_, carried, after, _, _, _, applied, locatedAfter, _, _, _, grown⟩ :=
            planEdits_new located existing marker
              (parameters_ne_nil_of_absent planned someDependency existing) spacesOption
              writableProperties writableParameters writableAssignments planResult
          exact ⟨carried, after, applied, locatedAfter, grown⟩
      | some constructor =>
          exact grown_of_existing located existing level wellSpaced readable spacesOption
            writableProperties writableParameters writableAssignments planResult
    rw [appliedAgain, Except.ok.injEq] at applied
    subst applied
    exact ⟨after, distinct, planned, rfl, locatedAfter, grown⟩

/-- An injection provides all that was asked for. -/
theorem inject_provides {request : List Dependency} {injected : Injected}
    (located : stream.locate? options.marker = some site) (marker : options.marker = defaultMarker)
    (level : Level stream) (wellSpaced : WellSpaced stream) (readable : site.Readable stream)
    (spacesOption : Spaces options.indent) (nonempty : request ≠ [])
    (qualified : ∀ dependency ∈ request, dependency.className.head? = some '\\')
    (result : inject stream site request options = .ok injected) :
    ∃ after, injected.stream.locate? options.marker = some after ∧
      after.constructor?.isSome = true ∧ ∀ dependency ∈ request,
        (site.parameters.countP (·.name == dependency.variableName) ≤ 1 →
          after.parameters.countP (·.name == dependency.variableName) = 1) ∧
        ∃ parameter, after.Provides injected.stream dependency parameter := by
  obtain ⟨dependencies, plan, after, distinct, planned, _, locatedAfter, grown⟩ :=
    inject_grown located marker level wellSpaced readable spacesOption nonempty qualified result
  refine ⟨after, locatedAfter, grown.present, ?_⟩
  intro requested inRequest
  exact grown.provides_of_distinct planned distinct inRequest

end Carried

end ConstructorInjection

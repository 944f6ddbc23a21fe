import Mathlib.Data.List.Basic
import Mathlib.Tactic.Common
import ConstructorInjection.Proofs.Locating
import ConstructorInjection.Proofs.Partners

/-!
The constructors of a class itself. A method is the class's own when the braces of the class are the
innermost delimiters around it; of these methods the first one that the marker names is located, and
the others are counted.
-/

namespace ConstructorInjection

namespace TokenStream

/-- The modifiers in front of an index, the first of them at `start`; none when `start` is the index
itself. -/
structure ModifierRun (stream : TokenStream) (start index : Nat) : Prop where
  ordered : start ≤ index
  begins : start = index ∨ methodModifiers.any (stream.isKeyword · start) = true
  words : ∀ between token, start ≤ between → between < index → stream[between]? = some token →
    token.isTrivia = true ∨ methodModifiers.any token.isKeyword = true
  whole : ∀ previous, stream.previousSignificant? start = some previous →
    methodModifiers.any (stream.isKeyword · previous) = false

theorem modifierRun_methodStart (stream : TokenStream) (index : Nat) :
    stream.ModifierRun (stream.methodStart index) index := by
  induction index using Nat.strongRecOn with
  | ind index ih =>
      rw [methodStart]
      split
      next missing =>
        refine ⟨Nat.le_refl _, .inl rfl, by omega, ?_⟩
        intro previous found
        rw [missing] at found
        contradiction
      next previous found =>
        have before := stream.lt_of_previousSignificant? found
        split
        next allowed =>
          obtain ⟨ordered, begins, words, whole⟩ := ih previous before
          refine ⟨by omega, .inr ?_, ?_, whole⟩
          · rcases begins with same | modifier
            · rw [same]
              exact allowed
            · exact modifier
          · intro between token lower upper there
            rcases Nat.lt_trichotomy between previous with earlier | rfl | later
            · exact words between token lower earlier there
            · right
              simpa [isKeyword, there] using allowed
            · left
              exact isTrivia_of_previousSignificant? found later upper there
        next refused =>
          refine ⟨Nat.le_refl _, .inl rfl, by omega, ?_⟩
          intro other otherFound
          rw [found, Option.some.injEq] at otherFound
          rw [← otherFound]
          simpa using refused

/-- A method of a class itself, not of anything inside the class, that the marker names. -/
structure DeclaresMarked (stream : TokenStream) (declaration : ClassDeclaration) (marker : Text)
    (function name : Nat) : Prop where
  keyword : stream.isKeyword "function" function = true
  own : stream.EnclosedBy declaration.bodyOpen declaration.bodyClose function
  named : stream.nextOfKind? .identifier function = some name ∨
    ∃ ampersand, stream.nextOfKind? .ampersand function = some ampersand ∧
      stream.nextOfKind? .identifier ampersand = some name
  marked : stream[name]?.any (·.text.equalIgnoringCase marker) = true

section Class

variable {stream : TokenStream} {declaration : ClassDeclaration} {marker : Text}

theorem partners_of_findClass? (nested : Nested stream)
    (found : stream.findClass? = some declaration) :
    stream.Partners declaration.bodyOpen declaration.bodyClose := by
  simp only [findClass?, Option.bind_eq_bind, Option.bind_eq_some_iff, Option.pure_def,
    Option.some.injEq] at found
  obtain ⟨_, _, _, _, _, closes, rfl⟩ := found
  exact (matchingClose?_eq_some_iff_partners nested).mp closes

/-- The members of a class are what its braces enclose directly. -/
theorem mem_members_iff_enclosedBy (nested : Nested stream)
    (found : stream.findClass? = some declaration) {index : Nat}
    (noCloser : ¬ stream.Passes (·.kind.isCloser) index) :
    index ∈ stream.members declaration.bodyOpen declaration.bodyClose ↔
      stream.EnclosedBy declaration.bodyOpen declaration.bodyClose index := by
  obtain ⟨body, closer, rest, cut, place, _, level⟩ := findClass?_parts found
  have partners := partners_of_findClass? nested found
  rw [mem_members_iff index cut place level]
  constructor
  · rintro ⟨before, token, after, rfl, rfl, _, levelBefore⟩
    rw [List.append_assoc] at cut
    have behind : declaration.bodyOpen < declaration.bodyOpen + 1 + before.length := by omega
    rw [enclosedBy_iff_level nested partners behind _ noCloser, slice_of_drop_eq cut rfl]
    · exact levelBefore
    · rw [place, List.length_append, List.length_cons]
      omega
  · intro enclosed
    have levelBefore := (enclosedBy_iff_level nested partners enclosed.behind enclosed.before
      noCloser).mp enclosed
    have inside := slice_of_drop_eq cut place
    obtain ⟨_, _, _, atClosing, _⟩ := partners.family
    have bound := (List.getElem?_eq_some_iff.mp atClosing).1
    have before := enclosed.before
    obtain ⟨token, atIndex⟩ : ∃ token, stream[index]? = some token :=
      ⟨_, List.getElem?_eq_getElem (Nat.lt_trans before bound)⟩
    refine ⟨_, token, stream.slice ⟨index + 1, declaration.bodyClose⟩, ?_, ?_, ?_, levelBefore⟩
    · rw [← slice_eq_cons atIndex before, stream.slice_append_slice enclosed.behind
        (Nat.le_of_lt before), inside]
    · have behind := enclosed.behind
      rw [length_slice]
      simp only
      omega
    · rw [Passes, atIndex, Option.any_some] at noCloser
      simpa using noCloser

theorem markedMethod?_member_iff (nested : Nested stream)
    (found : stream.findClass? = some declaration) {function name : Nat} :
    (function, name) ∈ (stream.members declaration.bodyOpen declaration.bodyClose).filterMap
        (stream.markedMethod? marker) ↔
      stream.DeclaresMarked declaration marker function name := by
  have noCloser (keyword : stream.isKeyword "function" function = true) :
      ¬ stream.Passes (·.kind.isCloser) function := by
    obtain ⟨token, there, isFunction⟩ := (Option.any_eq_true _ _).mp keyword
    rw [Token.isKeyword, Bool.and_eq_true, beq_iff_eq] at isFunction
    rw [Passes, there, Option.any_some, isFunction.1]
    decide
  simp only [List.mem_filterMap, markedMethod?_eq_some, methodName?_eq_some_iff]
  constructor
  · rintro ⟨_, member, keyword, named, marked, rfl⟩
    exact ⟨keyword, (mem_members_iff_enclosedBy nested found (noCloser keyword)).mp member, named,
      marked⟩
  · rintro ⟨keyword, own, named, marked⟩
    exact ⟨function, (mem_members_iff_enclosedBy nested found (noCloser keyword)).mpr own, keyword,
      named, marked, rfl⟩

theorem pairwise_marked (stream : TokenStream) (declaration : ClassDeclaration) (marker : Text) :
    ((stream.members declaration.bodyOpen declaration.bodyClose).filterMap
      (stream.markedMethod? marker)).Pairwise fun left right => left.1 < right.1 := by
  rw [List.pairwise_filterMap]
  refine (pairwise_outermostFrom _ _ _).2.imp ?_
  rintro index later ordered ⟨function, _⟩ marked ⟨other, _⟩ otherMarked
  obtain ⟨_, _, _, rfl⟩ := markedMethod?_eq_some.mp marked
  obtain ⟨_, _, _, rfl⟩ := markedMethod?_eq_some.mp otherMarked
  exact ordered

theorem start_constructorAt (stream : TokenStream) (function name : Nat) :
    (stream.constructorAt function name).start = stream.methodStart function := by
  simp only [constructorAt]
  split <;> rfl

end Class

/-- The first of a class's own methods that the marker names, and the others behind it. -/
structure FirstMarked (stream : TokenStream) (declaration : ClassDeclaration) (marker : Text)
    (function name : Nat) (others : List Nat) : Prop where
  declares : stream.DeclaresMarked declaration marker function name
  inOrder : (function :: others).Pairwise (· < ·)
  complete : ∀ other, other ∈ function :: others ↔
    ∃ otherName, stream.DeclaresMarked declaration marker other otherName

/-- A list of the methods that the marker names, in their order, has the first one in front. -/
theorem FirstMarked.of_cons {stream : TokenStream} {declaration : ClassDeclaration} {marker : Text}
    {function name : Nat} {others : List (Nat × Nat)}
    (member_iff : ∀ other otherName, (other, otherName) ∈ (function, name) :: others ↔
      stream.DeclaresMarked declaration marker other otherName)
    (sorted : ((function, name) :: others).Pairwise fun left right => left.1 < right.1) :
    stream.FirstMarked declaration marker function name (others.map Prod.fst) := by
  refine ⟨(member_iff _ _).mp List.mem_cons_self, List.pairwise_map.mpr sorted, ?_⟩
  intro other
  have firsts : function :: others.map Prod.fst = ((function, name) :: others).map Prod.fst := rfl
  rw [firsts]
  simp only [List.mem_map, Prod.exists, member_iff]
  constructor
  · rintro ⟨_, otherName, declares, rfl⟩
    exact ⟨otherName, declares⟩
  · rintro ⟨otherName, declares⟩
    exact ⟨other, otherName, declares, rfl⟩

/-- The first of the methods is located as the constructor. -/
theorem FirstMarked.exists_locate? {stream : TokenStream} {declaration : ClassDeclaration}
    {marker : Text} {function name : Nat} {others : List Nat} (nested : Nested stream)
    (found : stream.findClass? = some declaration)
    (first : stream.FirstMarked declaration marker function name others) :
    ∃ site, stream.locate? marker = some site ∧ site.declaration = declaration ∧
      site.constructor? = some (stream.constructorAt function name) := by
  have listed := (markedMethod?_member_iff nested found).mpr first.declares
  have member_iff (function name : Nat) :=
    @markedMethod?_member_iff stream declaration marker nested found function name
  have sorted := pairwise_marked stream declaration marker
  refine ⟨_, by rw [locate?, found]; rfl, rfl, ?_⟩
  generalize (stream.members declaration.bodyOpen declaration.bodyClose).filterMap
    (stream.markedMethod? marker) = marked at listed member_iff sorted
  cases marked with
  | nil => cases listed
  | cons head marked =>
      rcases List.mem_cons.mp listed with rfl | later
      · rfl
      · have before : head.1 < function := (List.pairwise_cons.mp sorted).1 _ later
        have isMarked := (first.complete head.1).mpr
          ⟨head.2, (member_iff _ _).mp List.mem_cons_self⟩
        rcases List.mem_cons.mp isMarked with same | other
        · omega
        · have behind := (List.pairwise_cons.mp first.inOrder).1 _ other
          omega

/-- A class that is found has a constructor just if one of its own methods is named by the marker in
any case. The first of these is described from its modifiers on and the others are counted, whatever
methods stand inside further delimiters of the class. -/
theorem locate?_ownConstructor {source : Text} {stream : TokenStream}
    {declaration : ClassDeclaration} (lexed : tokenize source = .ok stream)
    (found : stream.findClass? = some declaration) (marker : Text) :
    ∃ site, stream.locate? marker = some site ∧ site.declaration = declaration ∧
      (site.constructor?.isSome = true ↔
        ∃ function name, stream.DeclaresMarked declaration marker function name) ∧
      (site.constructor? = none → site.duplicates = 0) ∧
      (∀ constructor, site.constructor? = some constructor →
        ∃ function name others, stream.FirstMarked declaration marker function name others ∧
          constructor = stream.constructorAt function name ∧
          stream.ModifierRun constructor.start function ∧ site.duplicates = others.length) ∧
      ∀ opening closing function name, stream.Partners opening closing →
        declaration.bodyOpen < opening → opening < function → function < closing →
          ¬ stream.DeclaresMarked declaration marker function name := by
  have nested := nested_of_tokenize lexed
  have member_iff (function name : Nat) :=
    @markedMethod?_member_iff stream declaration marker nested found function name
  have sorted := pairwise_marked stream declaration marker
  refine ⟨_, by rw [locate?, found]; rfl, rfl, ?_⟩
  generalize (stream.members declaration.bodyOpen declaration.bodyClose).filterMap
    (stream.markedMethod? marker) = marked at member_iff sorted
  refine ⟨?_, ?_, ?_, ?_⟩
  · cases marked with
    | nil => simpa using member_iff
    | cons first others =>
        simp only [List.head?_cons, Option.map_some, Option.isSome_some, true_iff]
        exact ⟨first.1, first.2, (member_iff _ _).mp List.mem_cons_self⟩
  · cases marked with
    | nil => intro _; rfl
    | cons first others => intro none; cases none
  · intro constructor described
    cases marked with
    | nil => cases described
    | cons first others =>
        obtain ⟨function, name⟩ := first
        cases described
        refine ⟨function, name, others.map Prod.fst, .of_cons member_iff sorted, rfl, ?_, ?_⟩
        · rw [start_constructorAt]
          exact stream.modifierRun_methodStart function
        · simp
  · intro opening closing function name partners behind lower upper declares
    have outside := (declares.own.innermost _ _ partners lower upper).1
    omega

/-- A class with a constructor in an anonymous class, one in a function, and two of its own. -/
def nestedConstructors : Text :=
  "<?php class A\x7bfunction f()\x7bnew class\x7bfunction __construct()\x7b\x7d\x7d;" ++
    "function __construct()\x7b\x7d\x7d #[B]\nfinal /**/ public function & __CONSTRUCT()\x7b\x7d" ++
    "function __construct();\x7d"

theorem locate?_ownConstructor_nestedConstructors :
    ∃ (stream : TokenStream) (declaration : ClassDeclaration),
      tokenize nestedConstructors = .ok stream ∧ stream.findClass? = some declaration ∧
      ∃ site, stream.locate? "__construct" = some site ∧ site.duplicates = 1 ∧
        ∃ constructor function name others, site.constructor? = some constructor ∧
          stream.FirstMarked declaration "__construct" function name others ∧
          stream.ModifierRun constructor.start function := by
  have computed : (tokenize nestedConstructors).toOption.any (fun stream : TokenStream =>
      stream.findClass?.isSome && (stream.locate? "__construct").any fun site =>
        site.duplicates == 1 && site.constructor?.isSome) = true := by
    decide +kernel
  simp only [Option.any_eq_true, Bool.and_eq_true, beq_iff_eq, Option.isSome_iff_exists] at computed
  obtain ⟨stream, accepted, ⟨declaration, found⟩, site, located, duplicates, constructor, described⟩ :=
    computed
  have lexed := eq_ok_of_toOption accepted
  obtain ⟨same, again, _, _, _, describes, _⟩ :=
    locate?_ownConstructor lexed found "__construct"
  rw [located, Option.some.injEq] at again
  subst again
  obtain ⟨function, name, others, first, _, modifiers, _⟩ := describes constructor described
  exact ⟨stream, declaration, lexed, found, site, located, duplicates, constructor, function, name,
    others, described, first, modifiers⟩

end TokenStream

end ConstructorInjection

import Mathlib.Data.List.Basic
import Mathlib.Tactic.Common
import ConstructorInjection.Proofs.ArgumentCalls
import ConstructorInjection.Proofs.Injections
import ConstructorInjection.Proofs.OwnConstructors

/-!
Where the parts of a located constructor stand in its class. All that belongs to the head of the
constructor lies between the braces of the class, in the order of the text. The body does so as well,
if the class has a brace or a semicolon behind the parameters; the search for it does not stop at the
end of the class.
-/

namespace ConstructorInjection

/-- The first token of a constructor and the parentheses of its parameters, as far as it has them. -/
def Constructor.headPlaces (constructor : Constructor) : List Nat :=
  constructor.start ::
    constructor.parameterList.toList.flatMap fun list => [list.opening, list.closing]

/-- The places of the head and of the braces of the body, as far as there are any. -/
def Constructor.places (constructor : Constructor) : List Nat :=
  constructor.headPlaces ++ (constructor.bodyOpen.toList ++ constructor.bodyClose.toList)

/-- The places follow one another between the braces of the class. -/
def ClassDeclaration.Holds (declaration : ClassDeclaration) (places : List Nat) : Prop :=
  (declaration.bodyOpen :: (places ++ [declaration.bodyClose])).Pairwise (· < ·)

instance (declaration : ClassDeclaration) (places : List Nat) :
    Decidable (declaration.Holds places) :=
  inferInstanceAs
    (Decidable (List.Pairwise (· < ·) (declaration.bodyOpen :: (places ++ [declaration.bodyClose]))))

theorem ClassDeclaration.holds_iff {declaration : ClassDeclaration} {places : List Nat} :
    declaration.Holds places ↔
      (declaration.bodyOpen :: (places ++ [declaration.bodyClose])).IsChain (· < ·) :=
  List.isChain_iff_pairwise.symm

namespace TokenStream

/-- The search for a body that begins behind `closing` does not get out of the class that ends at
`limit`: the class has a brace or a semicolon there, or no brace comes behind the class before a
semicolon does. -/
def EndsHeadBefore (stream : TokenStream) (closing limit : Nat) : Prop :=
  (∃ index, closing < index ∧ index < limit ∧
      (stream.hasKind .openBrace index = true ∨ stream.hasKind .semicolon index = true)) ∨
    ∀ brace, limit < brace → stream.hasKind .openBrace brace = true →
      ∃ semicolon, limit < semicolon ∧ semicolon < brace ∧
        stream.hasKind .semicolon semicolon = true

section Searches

variable {stream : TokenStream} {index closing limit found : Nat}

theorem isTrivia_eq_false_of_isCloser {kind : TokenKind} (closes : kind.isCloser = true) :
    kind.isTrivia = false := by
  cases kind <;> first | rfl | contradiction

/-- A step to the next significant token does not get past a closer. -/
theorem nextOfKind?_lt_closer {kind : TokenKind} (next : stream.nextOfKind? kind index = some found)
    (noCloser : kind.isCloser = false) (closes : stream.Passes (·.kind.isCloser) limit)
    (before : index < limit) : found < limit := by
  obtain ⟨significant, isKind⟩ := nextOfKind?_eq_some_iff.mp next
  rw [nextSignificant?, significantFrom?, firstIn?_eq_some_iff] at significant
  obtain ⟨closer, there, isCloser⟩ := (Option.any_eq_true _ _).mp closes
  rcases Nat.lt_trichotomy found limit with inside | rfl | beyond
  · exact inside
  · obtain ⟨token, again, rfl⟩ := hasKind_iff.mp isKind
    rw [there, Option.some.injEq] at again
    rw [← again, isCloser] at noCloser
    contradiction
  · refine absurd ?_ (significant.2 limit before beyond)
    rw [Passes, there, Option.any_some, Token.isTrivia, isTrivia_eq_false_of_isCloser isCloser]
    rfl

theorem passes_brace_or_semicolon_iff :
    stream.Passes (fun token => token.kind == .openBrace || token.kind == .semicolon) index ↔
      stream.hasKind .openBrace index = true ∨ stream.hasKind .semicolon index = true := by
  rw [Passes, hasKind_iff, hasKind_iff]
  cases stream[index]? with
  | none => simp
  | some token => simp

/-- A body is found in the class exactly when the class, or what follows it, ends the head. -/
theorem bodyOpen?_lt_iff (closes : stream.Passes (·.kind.isCloser) limit) (before : closing < limit) :
    (∀ brace, stream.bodyOpen? (closing + 1) stream.length = some brace → brace < limit) ↔
      stream.EndsHeadBefore closing limit := by
  have notAtLimit : ¬ (stream.hasKind .openBrace limit = true ∨
      stream.hasKind .semicolon limit = true) := by
    obtain ⟨closer, there, isCloser⟩ := (Option.any_eq_true _ _).mp closes
    rw [hasKind_iff, hasKind_iff, there]
    rintro (⟨_, ⟨⟩, kind⟩ | ⟨_, ⟨⟩, kind⟩) <;> rw [kind] at isCloser <;> contradiction
  simp only [bodyOpen?, Option.filter_eq_some_iff, firstIn?_eq_some_iff,
    passes_brace_or_semicolon_iff]
  constructor
  · intro inside
    by_cases ended : ∃ index, closing < index ∧ index < limit ∧
        (stream.hasKind .openBrace index = true ∨ stream.hasKind .semicolon index = true)
    · exact .inl ended
    · refine .inr fun brace behind isBrace => ?_
      obtain ⟨token, there, _⟩ := hasKind_iff.mp isBrace
      have present := (List.getElem?_eq_some_iff.mp there).1
      have later : closing + 1 ≤ brace := by omega
      have searched : (stream.firstIn? ⟨closing + 1, stream.length⟩ fun token =>
          token.kind == .openBrace || token.kind == .semicolon).isSome = true :=
        isSome_firstIn?_iff.mpr
          ⟨brace, later, present, passes_brace_or_semicolon_iff.mpr (.inl isBrace)⟩
      obtain ⟨first, search⟩ := Option.isSome_iff_exists.mp searched
      simp only [firstIn?_eq_some_iff, passes_brace_or_semicolon_iff] at search
      obtain ⟨⟨lower, upper, ends⟩, earliest⟩ := search
      have outside : limit < first := by
        rcases Nat.lt_trichotomy first limit with inClass | rfl | beyond
        · exact absurd ⟨first, lower, inClass, ends⟩ ended
        · exact absurd ends notAtLimit
        · exact beyond
      rcases ends with opens | isSemicolon
      · have inClass := inside first ⟨⟨⟨lower, upper, .inl opens⟩, earliest⟩, opens⟩
        omega
      · have notLater : ¬ brace < first := fun earlier => earliest brace later earlier (.inl isBrace)
        have apart : first ≠ brace := by
          rintro rfl
          exact absurd (hasKind_unique isSemicolon isBrace) (by decide)
        exact ⟨first, outside, by omega, isSemicolon⟩
  · rintro (⟨index, behind, inClass, ends⟩ | outside) brace ⟨⟨⟨lower, _, _⟩, first⟩, isBrace⟩
    · by_contra beyond
      exact first index behind (by omega) ends
    · by_contra beyond
      have apart : brace ≠ limit := fun same => notAtLimit (.inl (same ▸ isBrace))
      obtain ⟨semicolon, behindClass, earlier, isSemicolon⟩ := outside brace (by omega) isBrace
      exact first semicolon (by omega) earlier (.inr isSemicolon)

end Searches

theorem constructorAt_cases (stream : TokenStream) (function name : Nat) :
    stream.constructorAt function name = ⟨stream.methodStart function, none, [], none, none⟩ ∨
      ∃ list, stream.nextOfKind? .openParen name = some list.opening ∧
        stream.matchingClose? list.opening = some list.closing ∧
        stream.constructorAt function name =
          ⟨stream.methodStart function, some list, stream.parametersIn list,
            stream.bodyOpen? (list.closing + 1) stream.length,
            (stream.bodyOpen? (list.closing + 1) stream.length).bind stream.matchingClose?⟩ := by
  rw [constructorAt]
  simp only [Option.bind_eq_bind, Option.pure_def]
  split
  next => exact .inl rfl
  next list found =>
    simp only [Option.bind_eq_some_iff, Option.some.injEq] at found
    obtain ⟨opening, opened, closing, closed, rfl⟩ := found
    exact .inr ⟨_, opened, closed, rfl⟩

theorem start_lt_stop_of_parameterIn? {stream : TokenStream} {range : IndexRange}
    {parameter : Parameter} (read : stream.parameterIn? range = some parameter) :
    range.start < range.stop := by
  rw [parameterIn?, Option.bind_eq_bind, Option.bind_eq_some_iff] at read
  obtain ⟨_, head, _⟩ := read
  rw [parameterHead?] at head
  split at head
  next before => exact before
  next => contradiction

/-- The parameters of a list follow one another between its parentheses. -/
theorem parametersIn_ordered (stream : TokenStream) {list : ParameterList}
    (ordered : list.opening < list.closing) :
    ((stream.parametersIn list).Pairwise fun left right => left.range.stop < right.range.start) ∧
      ∀ parameter ∈ stream.parametersIn list, list.opening < parameter.range.start ∧
        parameter.range.start < parameter.range.stop ∧ parameter.range.stop ≤ list.closing := by
  constructor
  · rw [parametersIn, List.pairwise_filterMap]
    refine ((pairwise_splitFrom (Nat.le_refl _)).filter _).imp ?_
    intro left right apart parameter read other readOther
    rw [range_of_parameterIn? read, range_of_parameterIn? readOther]
    have stop := trimTrivia_stop_le stream left
    have start := start_le_trimTrivia stream right
    omega
  · intro parameter member
    obtain ⟨item, inItems, read⟩ := List.mem_filterMap.mp member
    have behind := start_le_of_mem_splitTopLevel inItems
    have before := stop_le_of_mem_splitTopLevel (Nat.succ_le_of_lt ordered) inItems
    have start := start_le_trimTrivia stream item
    have stop := trimTrivia_stop_le stream item
    have proper := start_lt_stop_of_parameterIn? read
    rw [range_of_parameterIn? read]
    simp only [ParameterList.inner] at behind before
    omega

theorem Partners.passes_isCloser {stream : TokenStream} {opening closing : Nat}
    (partners : stream.Partners opening closing) : stream.Passes (·.kind.isCloser) closing := by
  obtain ⟨opener, closer, _, atClosing, family⟩ := partners.family
  rw [Passes, atClosing]
  exact TokenKind.isCloser_of_closing? family

section Class

variable {stream : TokenStream} {declaration : ClassDeclaration} {marker : Text}
  {function name : Nat}

namespace DeclaresMarked

theorem name_lt (declares : stream.DeclaresMarked declaration marker function name) :
    function < name ∧ name < declaration.bodyClose := by
  have closes := declares.own.partners.passes_isCloser
  rcases declares.named with next | ⟨ampersand, first, next⟩
  · exact ⟨lt_of_nextOfKind? next, nextOfKind?_lt_closer next rfl closes declares.own.before⟩
  · have inside := nextOfKind?_lt_closer first rfl closes declares.own.before
    have behind := lt_of_nextOfKind? first
    have further := lt_of_nextOfKind? next
    exact ⟨by omega, nextOfKind?_lt_closer next rfl closes inside⟩

/-- The modifiers of a method do not reach back over the brace of its class. -/
theorem lt_methodStart (declares : stream.DeclaresMarked declaration marker function name) :
    declaration.bodyOpen < stream.methodStart function ∧ stream.methodStart function ≤ function := by
  have run := stream.modifierRun_methodStart function
  refine ⟨?_, run.ordered⟩
  by_contra before
  obtain ⟨opener, closer, atOpening, _, family⟩ := declares.own.partners.family
  have opens := TokenKind.isOpener_of_closing? family
  rcases run.words declaration.bodyOpen opener (by omega) declares.own.behind atOpening with
    blank | modifier
  · rw [Token.isTrivia] at blank
    cases kind : opener.kind <;> rw [kind] at blank opens <;> contradiction
  · obtain ⟨word, _, isWord⟩ := List.any_eq_true.mp modifier
    rw [Token.isKeyword, Bool.and_eq_true, beq_iff_eq] at isWord
    rw [isWord.1] at opens
    contradiction

/-- The parentheses of a method lie in its class. -/
theorem list_lt (declares : stream.DeclaresMarked declaration marker function name)
    (nested : Nested stream) {list : ParameterList}
    (opened : stream.nextOfKind? .openParen name = some list.opening)
    (closed : stream.matchingClose? list.opening = some list.closing) :
    name < list.opening ∧ list.opening < list.closing ∧
      list.closing < declaration.bodyClose := by
  have behind := lt_of_nextOfKind? opened
  have inClass := declares.name_lt
  have inside := nextOfKind?_lt_closer opened rfl declares.own.partners.passes_isCloser inClass.2
  have partners := (matchingClose?_eq_some_iff_partners nested).mp closed
  have start := declares.own.behind
  exact ⟨behind, partners.ordered,
    declares.own.partners.closes_within nested partners (by omega) inside⟩

end DeclaresMarked

end Class

/-- A located constructor is described by the first of the class's own methods with its name. -/
theorem exists_declaresMarked {stream : TokenStream} {marker : Text} {site : ConstructorSite}
    {constructor : Constructor} (nested : Nested stream)
    (located : stream.locate? marker = some site)
    (existing : site.constructor? = some constructor) :
    ∃ function name, stream.DeclaresMarked site.declaration marker function name ∧
      constructor = stream.constructorAt function name := by
  obtain ⟨found, described, _⟩ := locate?_eq_some_iff.mp located
  rw [existing, Option.map_eq_some_iff] at described
  obtain ⟨⟨function, name⟩, first, isConstructor⟩ := described
  exact ⟨function, name,
    (markedMethod?_member_iff nested found).mp (List.mem_of_head? first), isConstructor.symm⟩

/-- A located constructor stands in its class. Its head lies in order between the braces of the class
and its parameters lie in order between its parentheses. The braces of its body lie behind them in
the class just if the search for the body ends there. -/
theorem locate?_places {source : Text} {stream : TokenStream} {marker : Text}
    {site : ConstructorSite} {constructor : Constructor} (lexed : tokenize source = .ok stream)
    (located : stream.locate? marker = some site)
    (existing : site.constructor? = some constructor) :
    site.declaration.Holds constructor.headPlaces ∧
      (constructor.parameters.Pairwise fun left right => left.range.stop < right.range.start) ∧
      (∀ parameter ∈ constructor.parameters, ∃ list, constructor.parameterList = some list ∧
        list.opening < parameter.range.start ∧ parameter.range.start < parameter.range.stop ∧
        parameter.range.stop ≤ list.closing) ∧
      (site.declaration.Holds constructor.places ↔
        ∀ list, constructor.parameterList = some list →
          stream.EndsHeadBefore list.closing site.declaration.bodyClose) := by
  have nested := nested_of_tokenize lexed
  obtain ⟨function, name, declares, rfl⟩ := exists_declaresMarked nested located existing
  have start := declares.lt_methodStart
  have named := declares.name_lt
  rcases stream.constructorAt_cases function name with unlisted | ⟨list, opened, closed, listed⟩
  · rw [unlisted]
    have held : site.declaration.Holds [stream.methodStart function] := by
      simp only [ClassDeclaration.holds_iff, List.cons_append, List.nil_append,
        List.isChain_cons_cons, List.IsChain.singleton, and_true]
      omega
    exact ⟨held, .nil, by simp, iff_of_true held (by simp)⟩
  · have order := declares.list_lt nested opened closed
    have parameters := stream.parametersIn_ordered order.2.1
    have held : site.declaration.Holds
        [stream.methodStart function, list.opening, list.closing] := by
      simp only [ClassDeclaration.holds_iff, List.cons_append, List.nil_append,
        List.isChain_cons_cons, List.IsChain.singleton, and_true]
      omega
    rw [listed]
    refine ⟨held, parameters.1,
      fun parameter member => ⟨list, rfl, parameters.2 parameter member⟩, ?_⟩
    simp only [Option.some.injEq, forall_eq']
    rw [← bodyOpen?_lt_iff declares.own.partners.passes_isCloser order.2.2]
    cases body : stream.bodyOpen? (list.closing + 1) stream.length with
    | none => exact iff_of_true held (by simp)
    | some brace =>
        have behind : list.closing < brace := by
          obtain ⟨_, _, _, _, rfl, _⟩ := bodyOpen?_eq_some_iff.mp body
          omega
        obtain ⟨bodyEnd, ended⟩ := Option.isSome_iff_exists.mp
          (isSome_matchingClose?_of_bodyOpen? nested.level body)
        have partners := (matchingClose?_eq_some_iff_partners nested).mp ended
        have proper := partners.ordered
        rw [Option.bind_some, ended]
        change site.declaration.Holds
          [stream.methodStart function, list.opening, list.closing, brace, bodyEnd] ↔ _
        simp only [ClassDeclaration.holds_iff, List.cons_append, List.nil_append,
          List.isChain_cons_cons, List.IsChain.singleton, and_true, Option.some.injEq, forall_eq']
        constructor
        · omega
        · intro inClass
          have bodyInClass :=
            declares.own.partners.closes_within nested partners (by omega) inClass
          omega

/-- A constructor behind another method, with all parts that it can have. -/
def constructorBehindMethod : Text :=
  "<?php class A\x7bfunction f()\x7b\x7d final public function &__construct(B $b, ...$c)\x7b\x7d\x7d"

theorem locate?_places_constructorBehindMethod :
    ∃ (stream : TokenStream) (site : ConstructorSite) (constructor : Constructor),
      tokenize constructorBehindMethod = .ok stream ∧
      stream.locate? defaultMarker = some site ∧ site.constructor? = some constructor ∧
      constructor.places.length = 5 ∧ constructor.parameters.length = 2 ∧
      site.declaration.Holds constructor.headPlaces ∧ site.declaration.Holds constructor.places ∧
      ∀ list, constructor.parameterList = some list →
        stream.EndsHeadBefore list.closing site.declaration.bodyClose := by
  have computed : (tokenize constructorBehindMethod).toOption.any (fun stream : TokenStream =>
      (stream.locate? defaultMarker).any fun site => site.constructor?.any fun constructor =>
        constructor.places.length == 5 && constructor.parameters.length == 2 &&
          decide (site.declaration.Holds constructor.places)) = true := by
    decide +kernel
  simp only [Option.any_eq_true, Bool.and_eq_true, beq_iff_eq, decide_eq_true_eq] at computed
  obtain ⟨stream, accepted, site, located, constructor, existing, ⟨places, parameters⟩, held⟩ :=
    computed
  have lexed := eq_ok_of_toOption accepted
  have ordered := locate?_places lexed located existing
  exact ⟨stream, site, constructor, lexed, located, existing, places, parameters, ordered.1, held,
    ordered.2.2.2.mp held⟩

/-- A class whose constructor has neither a body nor a semicolon, and a function behind it. -/
def functionBehindClass : Text :=
  "<?php class A\x7bfunction __construct()\x7dfunction f()\x7b\x7d"

/-- The body of the function is taken for that of the constructor. -/
theorem not_holds_functionBehindClass :
    ¬ ∀ (source marker : Text) (stream : TokenStream) (site : ConstructorSite)
      (constructor : Constructor), tokenize source = .ok stream →
        stream.locate? marker = some site → site.constructor? = some constructor →
          site.declaration.Holds constructor.places := by
  have computed : (tokenize functionBehindClass).toOption.any (fun stream : TokenStream =>
      (stream.locate? defaultMarker).any fun site => site.constructor?.any fun constructor =>
        !decide (site.declaration.Holds constructor.places)) = true := by
    decide +kernel
  simp only [Option.any_eq_true, Bool.not_eq_true', decide_eq_false_iff_not] at computed
  obtain ⟨stream, accepted, site, located, constructor, existing, outside⟩ := computed
  intro held
  exact outside (held _ _ stream site constructor (eq_ok_of_toOption accepted) located existing)

end TokenStream

end ConstructorInjection

import Mathlib.Data.List.Basic
import Mathlib.Tactic.Common
import ConstructorInjection.Proofs.Navigation
import ConstructorInjection.Proofs.StaticContexts

/-!
Calls in the static parts of a class. A conversion leaves them alone, but for two slips: arguments
that are converted with their call are not searched for static functions, and a method that is
declared by reference under a reserved word is not seen.
-/

namespace ConstructorInjection

theorem memberNameBehind_append (memberName : Bool) (left right : List Token) :
    memberNameBehind memberName (left ++ right) =
      memberNameBehind (memberNameBehind memberName left) right := by
  rw [memberNameBehind, List.foldl_append]
  rfl

/-- The last significant token decides what name comes next. -/
theorem memberNameBehind_take (memberName : Bool) {stream : TokenStream} {last index : Nat}
    {token : Token} (found : stream[last]? = some token) (significant : token.isTrivia = false)
    (before : last < index) (blank : Blank (stream.slice ⟨last + 1, index⟩)) :
    memberNameBehind memberName (stream.take index) =
      (token.kind.isMemberOperator || token.isKeyword "function") := by
  have noTrivia : token.kind.isTrivia = false := significant
  rw [← stream.take_append_slice (Nat.le_of_lt before), TokenStream.slice_eq_cons found before,
    memberNameBehind_append, memberNameBehind, List.foldl_cons, ← memberNameBehind,
    memberNameBehind_of_trivia blank, memberNameAfter, noTrivia]
  rfl

/-- The lexer reads no keyword where a member's or a function's name is to come. -/
theorem Lexes.hasKind_keyword_of_behind {mode : LexMode} {memberName : Bool} {place : Place}
    {input : Text} {stream : TokenStream} {last index : Nat} {token : Token}
    (lexes : Lexes mode memberName place input stream) (found : stream[last]? = some token)
    (introduces : (token.kind.isMemberOperator || token.isKeyword "function") = true)
    (before : last < index) (blank : Blank (stream.slice ⟨last + 1, index⟩)) :
    stream.hasKind .keyword index = false := by
  have significant : token.isTrivia = false := by
    rw [Token.isTrivia]
    rw [Token.isKeyword] at introduces
    cases kind : token.kind <;> simp_all [TokenKind.isTrivia, TokenKind.isMemberOperator]
  rw [TokenStream.hasKind, TokenStream.kindAt?]
  cases there : stream[index]? with
  | none => rfl
  | some next =>
      have cut := TokenStream.drop_eq_cons_iff.mpr ⟨there, rfl⟩
      rw [← stream.take_append_drop index, cut] at lexes
      obtain ⟨mode', place', input', later⟩ := lexes.drop
      rw [memberNameBehind_take memberName found significant before blank, introduces] at later
      have kind : next.kind ≠ .keyword := by
        cases later with
        | step _ piece _ => exact Piece.next_member_ne_keyword piece
      simpa using kind

/-- The lexer reads no keyword behind `function`. -/
theorem Lexes.hasKind_keyword_eq_false {mode : LexMode} {memberName : Bool} {place : Place}
    {input : Text} {stream : TokenStream} {function name : Nat}
    (lexes : Lexes mode memberName place input stream)
    (keyword : stream.isKeyword "function" function = true)
    (next : stream.nextSignificant? function = some name) :
    stream.hasKind .keyword name = false := by
  obtain ⟨introducer, found, isFunction⟩ := (Option.any_eq_true _ _).mp keyword
  obtain ⟨blanks, token, rest, cut, place, _, blank⟩ :=
    TokenStream.nextSignificant?_eq_some_iff.mp next
  refine lexes.hasKind_keyword_of_behind found (by rw [isFunction, Bool.or_true]) (by omega) ?_
  rwa [TokenStream.slice_of_drop_eq cut place]

theorem TokenStream.lt_length_of_matchingClose? {stream : TokenStream} {opener closer : Nat}
    (result : stream.matchingClose? opener = some closer) : closer < stream.length := by
  rw [matchingClose?] at result
  split at result
  next =>
    obtain ⟨distance, found, rfl⟩ := Option.map_eq_some_iff.mp result
    obtain ⟨inner, last, rest, cut, rfl, _, _⟩ := closerDistance?_eq_some_iff.mp found
    have total : (stream.drop (opener + 1)).length = (inner ++ last :: rest).length := by rw [cut]
    simp only [List.length_drop, List.length_append, List.length_cons] at total
    omega
  next => contradiction

theorem TokenStream.bodyClose_lt_length {stream : TokenStream} {declaration : ClassDeclaration}
    (found : stream.findClass? = some declaration) : declaration.bodyClose < stream.length := by
  simp only [findClass?, Option.bind_eq_bind, Option.bind_eq_some_iff, Option.pure_def,
    Option.some.injEq] at found
  obtain ⟨keyword, _, bodyOpen, _, bodyClose, closes, rfl⟩ := found
  exact lt_length_of_matchingClose? closes

namespace CallSite

def LiesIn (site : CallSite) (range : IndexRange) : Prop :=
  range.start ≤ site.start ∧ site.stop ≤ range.stop

end CallSite

/-- Converted, by itself or in the arguments of another call. -/
def Conversion.Converts (conversion : Conversion) (site : CallSite) : Prop :=
  ∃ outer ∈ conversion.sites, site.Within outer

theorem Converter.sites_of_process {converter : Converter} {stream : TokenStream}
    {conversion : Conversion} {declaration : ClassDeclaration}
    (processed : converter.process stream = .ok conversion)
    (found : stream.findClass? = some declaration) :
    conversion.sites = converter.sites stream declaration := by
  rw [process, found] at processed
  simp only at processed
  split at processed
  next none =>
    cases processed
    exact none.symm
  next first others some =>
    rw [some]
    simp only [bind, Except.bind, pure, Except.pure] at processed
    split at processed
    next => contradiction
    next edited _ =>
      split at processed
      next => contradiction
      next injected _ =>
        cases processed
        rfl

theorem TokenStream.sorted_staticRanges (stream : TokenStream) (declaration : ClassDeclaration) :
    (stream.staticRanges declaration).Pairwise fun left right => left.start ≤ right.start := by
  let before (left right : IndexRange) : Bool := left.start ≤ right.start
  have sorted := @List.pairwise_mergeSort _ before
    (fun first second third lower upper => by
      simp only [before, decide_eq_true_eq] at lower upper ⊢
      omega)
    (fun first second => by
      simp only [before, Bool.or_eq_true, decide_eq_true_eq]
      omega)
    (stream.staticMethodBodies declaration ++ stream.staticClosures declaration)
  exact sorted.imp fun order => by simpa [before] using order

theorem TokenStream.mem_staticRanges_iff {stream : TokenStream} {declaration : ClassDeclaration}
    {range : IndexRange} :
    range ∈ stream.staticRanges declaration ↔
      range ∈ stream.staticMethodBodies declaration ∨ range ∈ stream.staticClosures declaration := by
  rw [staticRanges, List.mem_mergeSort, List.mem_append]

namespace Conversion

variable (conversion : Conversion) (stream : TokenStream) (declaration : ClassDeclaration)

/-- No call in a static part of the class is converted. -/
def KeepsStaticCalls : Prop :=
  ∀ site, conversion.Converts site →
    ∀ range, stream.StaticContext declaration range → ¬ site.LiesIn range

/-- No call is converted in a static part that begins in the arguments of a converted call. -/
def KeepsStaticCallsInArguments : Prop :=
  ∀ outer ∈ conversion.sites, ∀ site, CallSite.Within site outer →
    ∀ range, stream.StaticContext declaration range → outer.start < range.start →
      ¬ site.LiesIn range

/-- No call is converted in a static method that is declared by reference under a reserved word. -/
def KeepsStaticCallsByReference : Prop :=
  ∀ function name range, stream.StaticMethodBody declaration function name range →
    stream.NamesReference function name → stream.hasKind .keyword name = true →
      ∀ site, conversion.Converts site → ¬ site.LiesIn range

end Conversion

theorem keepsStaticCalls_iff {converter : Converter} {source : Text} {stream : TokenStream}
    {conversion : Conversion} {declaration : ClassDeclaration}
    (lexed : tokenize source = .ok stream)
    (processed : converter.process stream = .ok conversion)
    (found : stream.findClass? = some declaration) :
    conversion.KeepsStaticCalls stream declaration ↔
      conversion.KeepsStaticCallsInArguments stream declaration ∧
        conversion.KeepsStaticCallsByReference stream declaration := by
  constructor
  · intro untouched
    refine ⟨?_, ?_⟩
    · intro outer member site within range context _
      exact untouched site ⟨outer, member, within⟩ range context
    · intro function name range body _ _ site converts
      exact untouched site converts range (.inl ⟨function, name, body⟩)
  · rintro ⟨inArguments, reserved⟩ site ⟨outer, member, within⟩ range context lies
    have scanned := member
    rw [Converter.sites_of_process processed found, Converter.sites] at scanned
    obtain ⟨⟨_, _, dispatched⟩, outside⟩ :=
      Converter.mem_sitesFrom (stream.sorted_staticRanges declaration) scanned
    obtain ⟨siteDispatched, startOrder, stopOrder⟩ := within.bounds dispatched
    obtain ⟨_, call, converted⟩ := dispatch?_eq_some siteDispatched
    have nonempty := converted.start_lt_stop
    have lower : range.start ≤ outer.start := by
      by_contra below
      exact inArguments outer member site within range context (by omega) lies
    have upper : outer.start < range.stop := by
      obtain ⟨_, last⟩ := lies
      rcases startOrder with rfl | behind <;> omega
    rcases context with ⟨function, name, body⟩ | closure
    · obtain ⟨word, spelled⟩ : stream.NamesMethod function name ∧
          stream.isKeyword "function" function = true := by
        cases body with
        | mk _ keyword _ _ named => exact ⟨named, keyword⟩
      rcases word.1 with unreserved | isKeyword
      · have skipped := TokenStream.StaticMethodBody.mem_staticMethodBodies body unreserved
        exact outside range (TokenStream.mem_staticRanges_iff.mpr (.inl skipped)) ⟨lower, upper⟩
      · rcases word.2 with direct | byReference
        · obtain ⟨lexes, _⟩ := tokenize_eq_ok_iff.mp lexed
          have noKeyword := (Lexes.of_lexFrom lexes).hasKind_keyword_eq_false spelled direct
          rw [isKeyword] at noKeyword
          contradiction
        · exact reserved function name range body byReference isKeyword site
            ⟨outer, member, within⟩ lies
    · obtain ⟨skipped, inClosures, sameStart, further⟩ :=
        closure.exists_mem_staticClosures (TokenStream.bodyClose_lt_length found)
      refine outside skipped (TokenStream.mem_staticRanges_iff.mpr (.inr inClosures)) ?_
      omega

def conventions : Converter :=
  ⟨⟨MappingTables.empty, .moduleQualified⟩, InjectionOptions.default⟩

/-- A static closure in the arguments of a call that is converted. -/
def closureInArgument : Text :=
  "<?php class A\x7bfunction f()\x7bMage::log(static function()\x7bMage::helper('tax');\x7d);\x7d\x7d"

def closureInArgumentTokens : TokenStream :=
  [⟨.openTag, "<?php ", 1⟩, ⟨.keyword, "class", 1⟩, ⟨.whitespace, " ", 1⟩, ⟨.identifier, "A", 1⟩,
   ⟨.openBrace, "\x7b", 1⟩, ⟨.keyword, "function", 1⟩, ⟨.whitespace, " ", 1⟩,
   ⟨.identifier, "f", 1⟩, ⟨.openParen, "(", 1⟩, ⟨.closeParen, ")", 1⟩, ⟨.openBrace, "\x7b", 1⟩,
   ⟨.identifier, "Mage", 1⟩, ⟨.doubleColon, "::", 1⟩, ⟨.identifier, "log", 1⟩,
   ⟨.openParen, "(", 1⟩, ⟨.keyword, "static", 1⟩, ⟨.whitespace, " ", 1⟩, ⟨.keyword, "function", 1⟩,
   ⟨.openParen, "(", 1⟩, ⟨.closeParen, ")", 1⟩, ⟨.openBrace, "\x7b", 1⟩, ⟨.identifier, "Mage", 1⟩,
   ⟨.doubleColon, "::", 1⟩, ⟨.identifier, "helper", 1⟩, ⟨.openParen, "(", 1⟩,
   ⟨.stringLiteral, "'tax'", 1⟩, ⟨.closeParen, ")", 1⟩, ⟨.semicolon, ";", 1⟩,
   ⟨.closeBrace, "\x7d", 1⟩, ⟨.closeParen, ")", 1⟩, ⟨.semicolon, ";", 1⟩,
   ⟨.closeBrace, "\x7d", 1⟩, ⟨.closeBrace, "\x7d", 1⟩]

theorem tokenize_closureInArgument :
    tokenize closureInArgument = .ok closureInArgumentTokens :=
  eq_ok_of_toOption (by decide +kernel)

theorem process_closureInArgument :
    ∃ conversion, conventions.process closureInArgumentTokens = .ok conversion := by
  have converted : (conventions.process closureInArgumentTokens).toOption.isSome = true := by
    decide +kernel
  obtain ⟨conversion, result⟩ := Option.isSome_iff_exists.mp converted
  exact ⟨conversion, eq_ok_of_toOption result⟩

theorem findClass?_closureInArgument :
    TokenStream.findClass? closureInArgumentTokens = some ⟨1, some "A", none, 4, 32⟩ := by
  decide +kernel

theorem keepsStaticCalls_iff_closureInArgument :
    ∃ conversion, conventions.process closureInArgumentTokens = .ok conversion ∧
      (conversion.KeepsStaticCalls closureInArgumentTokens ⟨1, some "A", none, 4, 32⟩ ↔
        conversion.KeepsStaticCallsInArguments closureInArgumentTokens
            ⟨1, some "A", none, 4, 32⟩ ∧
          conversion.KeepsStaticCallsByReference closureInArgumentTokens
            ⟨1, some "A", none, 4, 32⟩) := by
  obtain ⟨conversion, processed⟩ := process_closureInArgument
  exact ⟨conversion, processed, keepsStaticCalls_iff tokenize_closureInArgument processed
    findClass?_closureInArgument⟩

theorem not_keepsStaticCalls_closureInArgument :
    ¬ ∀ (converter : Converter) (source : Text) (stream : TokenStream) (conversion : Conversion)
      (declaration : ClassDeclaration), tokenize source = .ok stream →
        converter.process stream = .ok conversion → stream.findClass? = some declaration →
          conversion.KeepsStaticCalls stream declaration := by
  intro keeps
  obtain ⟨conversion, processed⟩ := process_closureInArgument
  have sites : ((conventions.sites closureInArgumentTokens
      ⟨1, some "A", none, 4, 32⟩).head?.bind (·.nested.head?)).any
        (fun site => site.start == 21 && site.stop == 27) = true := by
    decide +kernel
  rw [← Converter.sites_of_process processed findClass?_closureInArgument, Option.any_eq_true]
    at sites
  obtain ⟨site, nested, place⟩ := sites
  obtain ⟨outer, first, inOuter⟩ := Option.bind_eq_some_iff.mp nested
  have closure : TokenStream.StaticFunction closureInArgumentTokens
      ⟨1, some "A", none, 4, 32⟩ ⟨15, 28 + 1⟩ := by
    have opens : TokenStream.nextOfKind? closureInArgumentTokens .openParen 17 = some 18 := by
      decide +kernel
    have closes : TokenStream.matchingClose? closureInArgumentTokens 18 = some 19 := by
      decide +kernel
    have body : TokenStream.firstIn? closureInArgumentTokens ⟨19 + 1, 32⟩ (·.kind == .openBrace) =
        some 20 := by
      decide +kernel
    exact .closure (by decide) (by decide +kernel) (by decide +kernel) (by decide +kernel)
      (.inl opens) closes body (by decide +kernel)
  apply keeps _ _ _ _ _ tokenize_closureInArgument processed findClass?_closureInArgument site
    ⟨outer, List.mem_of_head? first, .nested (List.mem_of_head? inOuter) (.itself site)⟩ _
    (.inr closure)
  simp only [Bool.and_eq_true, beq_iff_eq] at place
  rw [CallSite.LiesIn, place.1, place.2]
  decide

end ConstructorInjection

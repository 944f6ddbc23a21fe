import Mathlib.Data.List.Basic
import Mathlib.Tactic.Common
import ConstructorInjection.Proofs.CallCoverage

/-!
Calls in anonymous classes. There, `$this` is not the object that the dependencies are injected into,
but a conversion makes no difference between such a class and the code around it.
-/

namespace ConstructorInjection

namespace TokenStream

/-- A place that `new` is in front of, where modifiers and attributes may come between. -/
inductive FollowsNew (stream : TokenStream) : Nat → Prop where
  | directly {index introducer : Nat}
      (previous : stream.previousSignificant? index = some introducer)
      (isNew : stream.isKeyword "new" introducer = true) : FollowsNew stream index
  | modified {index modifier : Nat}
      (previous : stream.previousSignificant? index = some modifier)
      (isReadonly : stream.isKeyword "readonly" modifier = true)
      (further : FollowsNew stream modifier) : FollowsNew stream index
  | attributed {index opening closing : Nat}
      (previous : stream.previousSignificant? index = some closing)
      (opens : stream.hasKind .attributeStart opening = true)
      (partner : stream.matchingClose? opening = some closing)
      (further : FollowsNew stream opening) : FollowsNew stream index

/-- The last token that the constructor of an anonymous class is called with: the parenthesis behind
its arguments or, without any, the keyword of the class. -/
def EndsArguments (stream : TokenStream) (keyword last : Nat) : Prop :=
  (stream.nextOfKind? .openParen keyword = none ∧ last = keyword) ∨
    ∃ opening, stream.nextOfKind? .openParen keyword = some opening ∧
      stream.matchingClose? opening = some last

/-- The body of an anonymous class that is written in the body of a class, with its braces. -/
inductive AnonymousClassBody (stream : TokenStream) (declaration : ClassDeclaration) :
    IndexRange → Prop where
  | mk {keyword last bodyOpen bodyClose : Nat} (isClass : stream.isKeyword "class" keyword = true)
      (introduced : stream.FollowsNew keyword) (arguments : stream.EndsArguments keyword last)
      (body : stream.firstIn? ⟨last + 1, stream.length⟩ (·.kind == .openBrace) = some bodyOpen)
      (bodyEnd : stream.matchingClose? bodyOpen = some bodyClose)
      (inside : declaration.bodyOpen < keyword ∧ bodyClose < declaration.bodyClose) :
      AnonymousClassBody stream declaration ⟨bodyOpen, bodyClose + 1⟩

theorem AnonymousClassBody.bounds {stream : TokenStream} {declaration : ClassDeclaration}
    {range : IndexRange} (body : stream.AnonymousClassBody declaration range) :
    declaration.bodyOpen < range.start ∧ range.stop ≤ declaration.bodyClose := by
  cases body with
  | @mk keyword last bodyOpen bodyClose isClass introduced arguments body bodyEnd inside =>
      have behind : keyword ≤ last := by
        rcases arguments with ⟨_, rfl⟩ | ⟨opening, next, partner⟩
        · exact Nat.le_refl _
        · have first := lt_of_nextOfKind? next
          have second := lt_of_matchingClose? partner
          omega
      have later := (firstIn?_eq_some_iff.mp body).1.1
      simp only at later ⊢
      omega

end TokenStream

/-- No call in an anonymous class is converted. -/
def Conversion.KeepsAnonymousClasses (conversion : Conversion) (stream : TokenStream)
    (declaration : ClassDeclaration) : Prop :=
  ∀ site, conversion.Converts site →
    ∀ range, stream.AnonymousClassBody declaration range → ¬ site.LiesIn range

/-- The calls in anonymous classes are kept exactly when each of them that has a replacement stands
in a static part of the class and in no argument of a converted call. -/
theorem keepsAnonymousClasses_iff {converter : Converter} {stream : TokenStream}
    {conversion : Conversion} {declaration : ClassDeclaration}
    (processed : converter.process stream = .ok conversion)
    (found : stream.findClass? = some declaration) :
    conversion.KeepsAnonymousClasses stream declaration ↔
      ∀ range, stream.AnonymousClassBody declaration range → ∀ site : CallSite,
        dispatch? converter.resolver stream site.start = some site → site.LiesIn range →
          (∃ part ∈ stream.staticRanges declaration,
              part.start ≤ site.start ∧ site.start < part.stop) ∧
            ∀ outer ∈ conversion.sites, ¬ (outer.start < site.start ∧ site.start < outer.stop) := by
  have inClass {range : IndexRange} {site : CallSite}
      (body : stream.AnonymousClassBody declaration range) (lies : site.LiesIn range) :
      declaration.bodyOpen < site.start ∧ site.stop ≤ declaration.bodyClose := by
    obtain ⟨lower, upper⟩ := body.bounds
    obtain ⟨first, last⟩ := lies
    omega
  constructor
  · intro keeps range body site dispatched lies
    obtain ⟨behind, fits⟩ := inClass body lies
    have untouched : ¬ conversion.Converts site := fun converts =>
      keeps site converts range body lies
    rw [Conversion.converts_iff processed found dispatched behind fits, not_or] at untouched
    obtain ⟨noOuter, hidden⟩ := untouched
    refine ⟨?_, fun outer member around => noOuter ⟨outer, member, around⟩⟩
    simpa using hidden
  · intro hidden site converts range body lies
    obtain ⟨behind, fits⟩ := inClass body lies
    have dispatched : dispatch? converter.resolver stream site.start = some site := by
      obtain ⟨outer, member, within⟩ := converts
      rw [Converter.sites_of_process processed found, Converter.sites] at member
      exact (within.bounds (Converter.mem_sitesFrom (stream.sorted_staticRanges declaration)
        member).1.2.2).1
    obtain ⟨⟨part, inStatic, around⟩, noOuter⟩ := hidden range body site dispatched lies
    rcases (Conversion.converts_iff processed found dispatched behind fits).mp converts with
      ⟨outer, member, inArguments⟩ | outside
    · exact noOuter outer member inArguments
    · exact outside part inStatic around

/-- A call in an anonymous class that a method returns. -/
def callInAnonymousClass : Text :=
  "<?php class A\x7bfunction f()\x7breturn new class\x7bfunction g()\x7breturn Mage::helper('tax');\x7d\x7d;\x7d\x7d"

def callInAnonymousClassTokens : TokenStream :=
  [⟨.openTag, "<?php ", 1⟩, ⟨.keyword, "class", 1⟩, ⟨.whitespace, " ", 1⟩, ⟨.identifier, "A", 1⟩,
   ⟨.openBrace, "\x7b", 1⟩, ⟨.keyword, "function", 1⟩, ⟨.whitespace, " ", 1⟩,
   ⟨.identifier, "f", 1⟩, ⟨.openParen, "(", 1⟩, ⟨.closeParen, ")", 1⟩, ⟨.openBrace, "\x7b", 1⟩,
   ⟨.keyword, "return", 1⟩, ⟨.whitespace, " ", 1⟩, ⟨.keyword, "new", 1⟩, ⟨.whitespace, " ", 1⟩,
   ⟨.keyword, "class", 1⟩, ⟨.openBrace, "\x7b", 1⟩, ⟨.keyword, "function", 1⟩,
   ⟨.whitespace, " ", 1⟩, ⟨.identifier, "g", 1⟩, ⟨.openParen, "(", 1⟩, ⟨.closeParen, ")", 1⟩,
   ⟨.openBrace, "\x7b", 1⟩, ⟨.keyword, "return", 1⟩, ⟨.whitespace, " ", 1⟩,
   ⟨.identifier, "Mage", 1⟩, ⟨.doubleColon, "::", 1⟩, ⟨.identifier, "helper", 1⟩,
   ⟨.openParen, "(", 1⟩, ⟨.stringLiteral, "'tax'", 1⟩, ⟨.closeParen, ")", 1⟩, ⟨.semicolon, ";", 1⟩,
   ⟨.closeBrace, "\x7d", 1⟩, ⟨.closeBrace, "\x7d", 1⟩, ⟨.semicolon, ";", 1⟩,
   ⟨.closeBrace, "\x7d", 1⟩, ⟨.closeBrace, "\x7d", 1⟩]

theorem tokenize_callInAnonymousClass :
    tokenize callInAnonymousClass = .ok callInAnonymousClassTokens :=
  eq_ok_of_toOption (by decide +kernel)

theorem process_callInAnonymousClass :
    ∃ conversion, conventions.process callInAnonymousClassTokens = .ok conversion := by
  have converted : (conventions.process callInAnonymousClassTokens).toOption.isSome = true := by
    decide +kernel
  obtain ⟨conversion, result⟩ := Option.isSome_iff_exists.mp converted
  exact ⟨conversion, eq_ok_of_toOption result⟩

theorem findClass?_callInAnonymousClass :
    TokenStream.findClass? callInAnonymousClassTokens = some ⟨1, some "A", none, 4, 36⟩ := by
  decide +kernel

theorem keepsAnonymousClasses_iff_callInAnonymousClass :
    ∃ conversion, conventions.process callInAnonymousClassTokens = .ok conversion ∧
      (conversion.KeepsAnonymousClasses callInAnonymousClassTokens ⟨1, some "A", none, 4, 36⟩ ↔
        ∀ range, TokenStream.AnonymousClassBody callInAnonymousClassTokens
            ⟨1, some "A", none, 4, 36⟩ range → ∀ site : CallSite,
          dispatch? conventions.resolver callInAnonymousClassTokens site.start = some site →
            site.LiesIn range →
              (∃ part ∈ TokenStream.staticRanges callInAnonymousClassTokens
                  ⟨1, some "A", none, 4, 36⟩, part.start ≤ site.start ∧ site.start < part.stop) ∧
                ∀ outer ∈ conversion.sites,
                  ¬ (outer.start < site.start ∧ site.start < outer.stop)) := by
  obtain ⟨conversion, processed⟩ := process_callInAnonymousClass
  exact ⟨conversion, processed,
    keepsAnonymousClasses_iff processed findClass?_callInAnonymousClass⟩

theorem not_keepsAnonymousClasses_callInAnonymousClass :
    ¬ ∀ (converter : Converter) (source : Text) (stream : TokenStream) (conversion : Conversion)
      (declaration : ClassDeclaration), tokenize source = .ok stream →
        converter.process stream = .ok conversion → stream.findClass? = some declaration →
          conversion.KeepsAnonymousClasses stream declaration := by
  intro keeps
  obtain ⟨conversion, processed⟩ := process_callInAnonymousClass
  have body : TokenStream.AnonymousClassBody callInAnonymousClassTokens
      ⟨1, some "A", none, 4, 36⟩ ⟨16, 33 + 1⟩ := by
    have first : TokenStream.firstIn? callInAnonymousClassTokens ⟨15 + 1, 37⟩
        (·.kind == .openBrace) = some 16 := by
      decide +kernel
    have partner : TokenStream.matchingClose? callInAnonymousClassTokens 16 = some 33 := by
      decide +kernel
    have introducer : TokenStream.previousSignificant? callInAnonymousClassTokens 15 = some 13 := by
      decide +kernel
    exact .mk (by decide +kernel) (.directly introducer (by decide +kernel))
      (.inl ⟨by decide +kernel, rfl⟩) first partner (by decide)
  have sites : (conventions.sites callInAnonymousClassTokens
      ⟨1, some "A", none, 4, 36⟩).head?.any (fun site => site.start == 25 && site.stop == 31) =
        true := by
    decide +kernel
  rw [← Converter.sites_of_process processed findClass?_callInAnonymousClass, Option.any_eq_true]
    at sites
  obtain ⟨site, first, place⟩ := sites
  apply keeps _ _ _ _ _ tokenize_callInAnonymousClass processed findClass?_callInAnonymousClass
    site ⟨site, List.mem_of_head? first, .itself site⟩ _ body
  simp only [Bool.and_eq_true, beq_iff_eq] at place
  rw [CallSite.LiesIn, place.1, place.2]
  decide

end ConstructorInjection

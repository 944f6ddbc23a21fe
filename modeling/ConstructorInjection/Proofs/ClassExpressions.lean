import Mathlib.Data.List.Basic
import Mathlib.Tactic.Common
import ConstructorInjection.Proofs.AnonymousClasses
import ConstructorInjection.Proofs.Partners

/-!
Files whose class keywords declare nothing. A file like that has no class, unless a class keyword in
it that is not directly behind its `new` has a brace somewhere behind it.
-/

namespace ConstructorInjection

namespace TokenStream

/-- The name of a named argument stands at the index. -/
def NamesArgument (stream : TokenStream) (index : Nat) : Prop :=
  ∃ colon, stream.nextOfKind? .operator index = some colon ∧
    stream[colon]?.any (·.text == [':']) = true

/-- Each class keyword belongs to an anonymous class or names an argument. -/
def OnlyClassExpressions (stream : TokenStream) : Prop :=
  ∀ keyword, stream.isKeyword "class" keyword = true →
    stream.FollowsNew keyword ∨ stream.NamesArgument keyword

/-- No more than blanks and comments lies between `new` and the index. -/
def DirectlyFollowsNew (stream : TokenStream) (index : Nat) : Prop :=
  ∃ introducer, stream.previousSignificant? index = some introducer ∧
    stream.isKeyword "new" introducer = true

theorem DirectlyFollowsNew.followsNew {stream : TokenStream} {index : Nat}
    (direct : stream.DirectlyFollowsNew index) : stream.FollowsNew index := by
  obtain ⟨introducer, previous, isNew⟩ := direct
  exact .directly previous isNew

def HasBraceBehind (stream : TokenStream) (index : Nat) : Prop :=
  ∃ brace, index < brace ∧ stream.hasKind .openBrace brace = true

section Search

variable {stream : TokenStream} {keyword : Nat}

/-- A class keyword is never behind a member operator, where the lexer reads a name. -/
theorem refersToClass_iff {mode : LexMode} {memberName : Bool} {place : Place} {input : Text}
    (lexes : Lexes mode memberName place input stream)
    (isClass : stream.isKeyword "class" keyword = true) :
    stream.refersToClass keyword = true ↔ stream.DirectlyFollowsNew keyword := by
  constructor
  · intro refers
    rw [refersToClass, Option.any_eq_true] at refers
    obtain ⟨token, previous, introduces⟩ := refers
    obtain ⟨introducer, found, there⟩ := Option.bind_eq_some_iff.mp previous
    rw [Bool.or_eq_true] at introduces
    rcases introduces with member | isNew
    · have blank : Blank (stream.slice ⟨introducer + 1, keyword⟩) := by
        intro between inside
        obtain ⟨index, lower, upper, atIndex⟩ := mem_slice_iff.mp inside
        exact isTrivia_of_previousSignificant? found lower upper atIndex
      have noKeyword := lexes.hasKind_keyword_of_behind there (by rw [member, Bool.true_or])
        (stream.lt_of_previousSignificant? found) blank
      obtain ⟨word, atKeyword, spelled⟩ := (Option.any_eq_true _ _).mp isClass
      rw [Token.isKeyword, Bool.and_eq_true, beq_iff_eq] at spelled
      rw [hasKind_iff.mpr ⟨word, atKeyword, spelled.1⟩] at noKeyword
      contradiction
    · exact ⟨introducer, found, (Option.any_eq_true _ _).mpr ⟨token, there, isNew⟩⟩
  · rintro ⟨introducer, found, isNew⟩
    obtain ⟨token, there, spelled⟩ := (Option.any_eq_true _ _).mp isNew
    rw [refersToClass, Option.any_eq_true]
    exact ⟨token, by rw [found, Option.bind_some, there], by rw [spelled, Bool.or_true]⟩

theorem lt_length_of_isKeyword {word : Text} (isWord : stream.isKeyword word keyword = true) :
    keyword < stream.length := by
  obtain ⟨token, there, _⟩ := (Option.any_eq_true _ _).mp isWord
  exact (List.getElem?_eq_some_iff.mp there).1

theorem firstIn?_openBrace_eq_none_iff :
    stream.firstIn? ⟨keyword + 1, stream.length⟩ (·.kind == .openBrace) = none ↔
      ¬ stream.HasBraceBehind keyword := by
  rw [firstIn?_eq_none_iff]
  constructor
  · rintro none ⟨brace, behind, isBrace⟩
    obtain ⟨token, there, kind⟩ := hasKind_iff.mp isBrace
    refine none brace behind (List.getElem?_eq_some_iff.mp there).1 ?_
    exact (Option.any_eq_true _ _).mpr ⟨token, there, beq_iff_eq.mpr kind⟩
  · intro none brace behind _ passes
    obtain ⟨token, there, kind⟩ := (Option.any_eq_true _ _).mp passes
    exact none ⟨brace, behind, hasKind_iff.mpr ⟨token, there, beq_iff_eq.mp kind⟩⟩

/-- The brace of the first class keyword that could declare a class is all that a class needs, since
each brace has its partner. -/
theorem findClass?_eq_none_iff_classKeyword? (nested : Nested stream) :
    stream.findClass? = none ↔
      ∀ keyword, stream.classKeyword? = some keyword → ¬ stream.HasBraceBehind keyword := by
  constructor
  · intro none keyword first
    by_contra hasBrace
    obtain ⟨bodyOpen, found⟩ := Option.ne_none_iff_exists'.mp
      (firstIn?_openBrace_eq_none_iff.not.mpr (not_not.mpr hasBrace))
    have opens : stream.Passes (·.kind.isOpener) bodyOpen := by
      obtain ⟨token, there, kind⟩ :=
        (Option.any_eq_true _ _).mp (firstIn?_eq_some_iff.mp found).1.2.2
      exact (Option.any_eq_true _ _).mpr ⟨token, there, by rw [beq_iff_eq.mp kind]; rfl⟩
    obtain ⟨bodyClose, partner⟩ := exists_partner_of_opener nested opens
    simp [findClass?, first, found, partner] at none
  · intro noBrace
    rw [Option.eq_none_iff_forall_ne_some]
    intro declaration found
    simp only [findClass?, Option.bind_eq_bind, Option.bind_eq_some_iff] at found
    obtain ⟨keyword, first, bodyOpen, brace, _⟩ := found
    rw [firstIn?_openBrace_eq_none_iff.mpr (noBrace keyword first)] at brace
    contradiction

/-- A stream has no class when no class keyword that could declare one has a brace behind it: the
braces behind any of these keywords are behind the first of them, too. -/
theorem findClass?_eq_none_iff (nested : Nested stream) :
    stream.findClass? = none ↔
      ∀ keyword, stream.isKeyword "class" keyword = true →
        stream.refersToClass keyword = false → ¬ stream.HasBraceBehind keyword := by
  rw [findClass?_eq_none_iff_classKeyword? nested]
  constructor
  · rintro noBrace keyword isClass declares ⟨brace, behind, isBrace⟩
    have listed : keyword ∈ List.range stream.length :=
      List.mem_range.mpr (lt_length_of_isKeyword isClass)
    obtain ⟨first, found⟩ : ∃ first, stream.classKeyword? = some first := by
      rw [← Option.isSome_iff_exists, classKeyword?, List.find?_isSome]
      exact ⟨keyword, listed, by rw [isClass, declares]; rfl⟩
    have earlier : first ≤ keyword := by
      rw [classKeyword?, List.find?_range_eq_some] at found
      by_contra later
      have rejected := found.2.2 keyword (by omega)
      rw [isClass, declares] at rejected
      contradiction
    exact noBrace first found ⟨brace, by omega, isBrace⟩
  · intro noBrace keyword found
    rw [classKeyword?, List.find?_range_eq_some, Bool.and_eq_true, Bool.not_eq_true'] at found
    exact noBrace keyword found.1.1 found.1.2

end Search

end TokenStream

/-- A source without a class is converted to itself. -/
theorem Converter.convertSource_of_noClass {source : Text} {stream : TokenStream}
    (lexed : tokenize source = .ok stream) (noClass : stream.findClass? = none)
    (converter : Converter) :
    converter.convertSource source = .ok ⟨source, false, [], [], 0, 0⟩ := by
  have whole : textOf stream = source := by
    obtain ⟨lexes, _⟩ := tokenize_eq_ok_iff.mp lexed
    exact (Lexes.of_lexFrom lexes).textOf_eq
  have processed : converter.process stream = .ok ⟨stream, [], [], [], 0⟩ := by
    rw [process, noClass]
  simp only [convertSource, lexed, Except.mapError, bind, Except.bind, processed, whole,
    bne_self_eq_false]
  rfl

namespace TokenStream

/-- A file whose class keywords only belong to anonymous classes and named arguments has no class
and stays as it is, exactly when no brace comes behind those of them that are not directly behind a
`new`: anonymous classes with attributes or modifiers, and named arguments. -/
theorem findClass?_of_onlyClassExpressions {source : Text} {stream : TokenStream}
    (lexed : tokenize source = .ok stream) (expressions : stream.OnlyClassExpressions) :
    (stream.findClass? = none ∧ ∀ converter : Converter,
        converter.convertSource source = .ok ⟨source, false, [], [], 0, 0⟩) ↔
      (∀ keyword, stream.isKeyword "class" keyword = true → stream.FollowsNew keyword →
        stream.DirectlyFollowsNew keyword ∨ ¬ stream.HasBraceBehind keyword) ∧
      ∀ keyword, stream.isKeyword "class" keyword = true → ¬ stream.FollowsNew keyword →
        stream.NamesArgument keyword → ¬ stream.HasBraceBehind keyword := by
  obtain ⟨lexes, _⟩ := tokenize_eq_ok_iff.mp lexed
  have refers {keyword : Nat} (isClass : stream.isKeyword "class" keyword = true) :=
    refersToClass_iff (Lexes.of_lexFrom lexes) isClass
  have unconverted (noClass : stream.findClass? = none) :=
    Converter.convertSource_of_noClass lexed noClass
  rw [and_iff_left_of_imp unconverted, findClass?_eq_none_iff (nested_of_tokenize lexed)]
  constructor
  · intro noBrace
    refine ⟨fun keyword isClass _ => ?_, fun keyword isClass notNew _ => ?_⟩
    · by_cases direct : stream.DirectlyFollowsNew keyword
      · exact .inl direct
      · rw [← refers isClass, Bool.not_eq_true] at direct
        exact .inr (noBrace keyword isClass direct)
    · apply noBrace keyword isClass
      rw [← Bool.not_eq_true, refers isClass]
      exact fun direct => notNew direct.followsNew
  · rintro ⟨anonymous, named⟩ keyword isClass declares
    rw [← Bool.not_eq_true, refers isClass] at declares
    by_cases isNew : stream.FollowsNew keyword
    · exact (anonymous keyword isClass isNew).resolve_left declares
    · exact named keyword isClass isNew ((expressions keyword isClass).resolve_left isNew)

/-- A comment between `new` and `class`, and an argument with the name `class`. -/
def commentBehindNew : Text :=
  "<?php $a = new /**/ class\x7b\x7d; f(class: 1);"

def commentBehindNewTokens : TokenStream :=
  [⟨.openTag, "<?php ", 1⟩, ⟨.variableName, "$a", 1⟩, ⟨.whitespace, " ", 1⟩, ⟨.assign, "=", 1⟩,
   ⟨.whitespace, " ", 1⟩, ⟨.keyword, "new", 1⟩, ⟨.whitespace, " ", 1⟩, ⟨.blockComment, "/**/", 1⟩,
   ⟨.whitespace, " ", 1⟩, ⟨.keyword, "class", 1⟩, ⟨.openBrace, "\x7b", 1⟩,
   ⟨.closeBrace, "\x7d", 1⟩, ⟨.semicolon, ";", 1⟩, ⟨.whitespace, " ", 1⟩, ⟨.identifier, "f", 1⟩,
   ⟨.openParen, "(", 1⟩, ⟨.keyword, "class", 1⟩, ⟨.operator, ":", 1⟩, ⟨.whitespace, " ", 1⟩,
   ⟨.number, "1", 1⟩, ⟨.closeParen, ")", 1⟩, ⟨.semicolon, ";", 1⟩]

/-- The class keywords of a stream of which all places are known. -/
theorem eq_of_isKeyword_class {stream : TokenStream} {places : List Nat}
    (listed : (List.range stream.length).filter (stream.isKeyword "class") = places)
    {keyword : Nat} (isClass : stream.isKeyword "class" keyword = true) : keyword ∈ places := by
  rw [← listed, List.mem_filter]
  exact ⟨List.mem_range.mpr (lt_length_of_isKeyword isClass), isClass⟩

theorem findClass?_commentBehindNew :
    tokenize commentBehindNew = .ok commentBehindNewTokens ∧
      OnlyClassExpressions commentBehindNewTokens ∧
      findClass? commentBehindNewTokens = none ∧
      ∀ converter : Converter, converter.convertSource commentBehindNew =
        .ok ⟨commentBehindNew, false, [], [], 0, 0⟩ := by
  have lexed : tokenize commentBehindNew = .ok commentBehindNewTokens :=
    eq_ok_of_toOption (by decide +kernel)
  have listed : (List.range (List.length commentBehindNewTokens)).filter
      (isKeyword commentBehindNewTokens "class") = [9, 16] := by
    decide +kernel
  have direct : DirectlyFollowsNew commentBehindNewTokens 9 :=
    ⟨5, by decide +kernel, by decide +kernel⟩
  have expressions : OnlyClassExpressions commentBehindNewTokens := by
    intro keyword isClass
    rcases List.mem_pair.mp (eq_of_isKeyword_class listed isClass) with rfl | rfl
    · exact .inl direct.followsNew
    · exact .inr ⟨17, by decide +kernel, by decide +kernel⟩
  have noBrace : ¬ HasBraceBehind commentBehindNewTokens 16 := by
    rw [← firstIn?_openBrace_eq_none_iff]
    decide +kernel
  refine ⟨lexed, expressions, (findClass?_of_onlyClassExpressions lexed expressions).mpr ⟨?_, ?_⟩⟩
  · intro keyword isClass _
    rcases List.mem_pair.mp (eq_of_isKeyword_class listed isClass) with rfl | rfl
    · exact .inl direct
    · exact .inr noBrace
  · intro keyword isClass notNew _
    rcases List.mem_pair.mp (eq_of_isKeyword_class listed isClass) with rfl | rfl
    · exact absurd direct.followsNew notNew
    · exact noBrace

/-- An anonymous class that is `readonly`. -/
def readonlyExpression : Text :=
  "<?php $a = new readonly class\x7bfunction f()\x7breturn Mage::helper('tax');\x7d\x7d;"

def readonlyExpressionTokens : TokenStream :=
  [⟨.openTag, "<?php ", 1⟩, ⟨.variableName, "$a", 1⟩, ⟨.whitespace, " ", 1⟩, ⟨.assign, "=", 1⟩,
   ⟨.whitespace, " ", 1⟩, ⟨.keyword, "new", 1⟩, ⟨.whitespace, " ", 1⟩, ⟨.keyword, "readonly", 1⟩,
   ⟨.whitespace, " ", 1⟩, ⟨.keyword, "class", 1⟩, ⟨.openBrace, "\x7b", 1⟩,
   ⟨.keyword, "function", 1⟩, ⟨.whitespace, " ", 1⟩, ⟨.identifier, "f", 1⟩, ⟨.openParen, "(", 1⟩,
   ⟨.closeParen, ")", 1⟩, ⟨.openBrace, "\x7b", 1⟩, ⟨.keyword, "return", 1⟩, ⟨.whitespace, " ", 1⟩,
   ⟨.identifier, "Mage", 1⟩, ⟨.doubleColon, "::", 1⟩, ⟨.identifier, "helper", 1⟩,
   ⟨.openParen, "(", 1⟩, ⟨.stringLiteral, "'tax'", 1⟩, ⟨.closeParen, ")", 1⟩, ⟨.semicolon, ";", 1⟩,
   ⟨.closeBrace, "\x7d", 1⟩, ⟨.closeBrace, "\x7d", 1⟩, ⟨.semicolon, ";", 1⟩]

/-- It is taken for the class of its file. -/
theorem not_findClass?_readonlyExpression :
    ¬ ∀ (source : Text) (stream : TokenStream), tokenize source = .ok stream →
      stream.OnlyClassExpressions → stream.findClass? = none ∧ ∀ converter : Converter,
        converter.convertSource source = .ok ⟨source, false, [], [], 0, 0⟩ := by
  intro ignored
  have lexed : tokenize readonlyExpression = .ok readonlyExpressionTokens :=
    eq_ok_of_toOption (by decide +kernel)
  have listed : (List.range (List.length readonlyExpressionTokens)).filter
      (isKeyword readonlyExpressionTokens "class") = [9] := by
    decide +kernel
  have introduced : FollowsNew readonlyExpressionTokens 9 := by
    have direct : DirectlyFollowsNew readonlyExpressionTokens 7 :=
      ⟨5, by decide +kernel, by decide +kernel⟩
    exact .modified (by decide +kernel) (by decide +kernel) direct.followsNew
  have expressions : OnlyClassExpressions readonlyExpressionTokens := by
    intro keyword isClass
    rw [List.mem_singleton.mp (eq_of_isKeyword_class listed isClass)]
    exact .inl introduced
  have found : (findClass? readonlyExpressionTokens).isSome = true := by
    decide +kernel
  rw [(ignored _ _ lexed expressions).1] at found
  contradiction

end TokenStream

end ConstructorInjection

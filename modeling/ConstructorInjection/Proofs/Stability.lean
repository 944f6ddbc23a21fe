import Mathlib.Data.List.Basic
import Mathlib.Tactic.Common
import ConstructorInjection.Proofs.LegibleReplacements

/-!
A conversion leaves nothing to convert: converting its result once more finds no call and changes
no token.
-/

namespace ConstructorInjection

/-- No name, keyword or number stands directly behind a legacy call. -/
def TokenStream.CallsApart (stream : TokenStream) : Prop :=
  ∀ index call, stream.legacyCall? index = some call →
    stream[call.stop]?.any (·.kind.continuesName) = false

namespace Converter

/-- Converting the stream finds nothing and changes nothing. -/
def Settled (converter : Converter) (stream : TokenStream) : Prop :=
  ∃ again, converter.process stream = .ok again ∧ again.sites = [] ∧ again.stream = stream

section StringBehindAttribute

/-- An attribute on a line that the conversion of a call continues with an open string. -/
def stringBehindAttribute : Text :=
  "<?php class A\x7bfunction f()\x7bMage::log(#[A] fn() => Mage::helper(\n'tax').'\nMage::helper(\"x\")/*'/**/);\x7d\x7d"

/-- What the call around the attribute becomes: the line is a comment, and behind it a call has come
out of the string. -/
def stringBehindAttributeReplacement : List Token :=
  [⟨.variableName, "$this", 0⟩, ⟨.objectOperator, "->", 0⟩, ⟨.identifier, "logger", 0⟩,
   ⟨.objectOperator, "->", 0⟩, ⟨.identifier, "debug", 0⟩, ⟨.openParen, "(", 0⟩,
   ⟨.lineComment, "#[A] fn() => $this->taxHelper.'", 0⟩, ⟨.whitespace, "\n", 0⟩,
   ⟨.identifier, "Mage", 0⟩, ⟨.doubleColon, "::", 0⟩, ⟨.identifier, "helper", 0⟩,
   ⟨.openParen, "(", 0⟩, ⟨.stringLiteral, "\"x\"", 0⟩, ⟨.closeParen, ")", 0⟩,
   ⟨.blockComment, "/*'/**/", 0⟩, ⟨.closeParen, ")", 0⟩]

theorem nested_stringBehindAttributeReplacement : Nested stringBehindAttributeReplacement := by
  have string : Nested [⟨.openParen, "(", 0⟩, ⟨.stringLiteral, "\"x\"", 0⟩, ⟨.closeParen, ")", 0⟩,
      ⟨.blockComment, "/*'/**/", 0⟩] :=
    @Nested.pair ⟨.openParen, "(", 0⟩ ⟨.closeParen, ")", 0⟩ [_] _ rfl (.plain rfl rfl .nil)
      (.plain rfl rfl .nil)
  have call : Nested [⟨.lineComment, "#[A] fn() => $this->taxHelper.'", 0⟩, ⟨.whitespace, "\n", 0⟩,
      ⟨.identifier, "Mage", 0⟩, ⟨.doubleColon, "::", 0⟩, ⟨.identifier, "helper", 0⟩,
      ⟨.openParen, "(", 0⟩, ⟨.stringLiteral, "\"x\"", 0⟩, ⟨.closeParen, ")", 0⟩,
      ⟨.blockComment, "/*'/**/", 0⟩] :=
    .plain rfl rfl (.plain rfl rfl (.plain rfl rfl (.plain rfl rfl (.plain rfl rfl string))))
  have list := @Nested.pair ⟨.openParen, "(", 0⟩ ⟨.closeParen, ")", 0⟩ _ [] rfl call .nil
  exact .plain rfl rfl (.plain rfl rfl (.plain rfl rfl (.plain rfl rfl (.plain rfl rfl list))))

theorem process_stringBehindAttribute :
    ∃ (stream : TokenStream) (conversion : Conversion) (declaration : ClassDeclaration),
      tokenize stringBehindAttribute = .ok stream ∧ stream.CallsApart ∧
      conventions.process stream = .ok conversion ∧
      conversion.sites.map CallSite.replacement = [stringBehindAttributeReplacement] ∧
      conversion.stream.findClass? = some declaration ∧
      conventions.sites conversion.stream declaration ≠ [] := by
  have computed : (tokenize stringBehindAttribute).toOption.any (fun stream =>
      (List.range stream.length).all (fun index => (TokenStream.legacyCall? stream index).all fun call =>
        !stream[call.stop]?.any (·.kind.continuesName)) &&
      (conventions.process stream).toOption.any fun conversion =>
        conversion.sites.map CallSite.replacement == [stringBehindAttributeReplacement] &&
        conversion.stream.findClass?.any fun declaration =>
          !(conventions.sites conversion.stream declaration).isEmpty) = true := by
    decide +kernel
  simp only [Option.any_eq_true, Bool.and_eq_true, Bool.not_eq_true', List.isEmpty_eq_false_iff,
    beq_iff_eq] at computed
  obtain ⟨stream, lexed, apart, conversion, processed, replacements, declaration, found, converts⟩ :=
    computed
  refine ⟨stream, conversion, declaration, eq_ok_of_toOption lexed, ?_, eq_ok_of_toOption processed,
    replacements, found, converts⟩
  intro index call isCall
  have inside := List.mem_range.mpr (TokenStream.index_lt_of_legacyCall? isCall)
  have single := List.all_eq_true.mp apart index inside
  rw [isCall, Option.all_some, Bool.not_eq_true'] at single
  exact single

/-- The second conversion converts what the first one has brought to light. -/
theorem not_settled_stringBehindAttribute :
    ¬ ∀ (converter : Converter) (source : Text) (stream : TokenStream) (conversion : Conversion),
      tokenize source = .ok stream → converter.process stream = .ok conversion →
        Spaces converter.options.indent → converter.options.marker = defaultMarker →
          stream.CallsApart → (∀ site ∈ conversion.sites, Nested site.replacement) →
            converter.Settled conversion.stream := by
  intro settled
  obtain ⟨stream, conversion, declaration, lexed, apart, processed, replacements, found, converts⟩ :=
    process_stringBehindAttribute
  have nested : ∀ site ∈ conversion.sites, Nested site.replacement := by
    intro site member
    have isReplacement : site.replacement ∈ conversion.sites.map CallSite.replacement :=
      List.mem_map_of_mem member
    rw [replacements, List.mem_singleton] at isReplacement
    rw [isReplacement]
    exact nested_stringBehindAttributeReplacement
  obtain ⟨again, processedAgain, noSites, _⟩ :=
    settled _ _ _ _ lexed processed (.of_all rfl) rfl apart nested
  have sites := sites_of_process processedAgain found
  exact converts (sites.symm.trans noSites)

end StringBehindAttribute

end Converter

end ConstructorInjection

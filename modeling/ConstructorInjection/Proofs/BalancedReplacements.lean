import Mathlib.Data.List.Basic
import Mathlib.Tactic.Common
import ConstructorInjection.Proofs.CopiedSpans
import ConstructorInjection.Proofs.StaticCalls

/-!
The delimiters of a replacement match, and so do those of the stream with the replacement in place of
the call, when nothing in the call depends on the line it stands on.
-/

namespace ConstructorInjection

section Replacement

variable {source : Text} {stream : TokenStream} {resolver : Resolver} {site : CallSite}

theorem nested_of_dispatch? (lexed : tokenize source = .ok stream)
    (dispatched : dispatch? resolver stream site.start = some site)
    (movable : stream.Movable site.range) : Nested site.replacement := by
  obtain ⟨_, call, converted⟩ := dispatch?_eq_some dispatched
  obtain ⟨copies, allCopied, code⟩ := converted.codeOf_replacement lexed movable
  have nested := nested_copies allCopied fun range member =>
    TokenStream.nested_of_mem_copied lexed converted.call_eq member
  rw [← nested_codeOf, code]
  exact (site.shape.isAccess_replacementTokens _ nested).nested

theorem nested_splice (lexed : tokenize source = .ok stream)
    (dispatched : dispatch? resolver stream site.start = some site)
    (movable : stream.Movable site.range) :
    Nested (stream.splice site.range site.replacement) := by
  obtain ⟨_, call, converted⟩ := dispatch?_eq_some dispatched
  obtain ⟨level, inside⟩ := TokenStream.level_of_legacyCall? converted.call_eq
  rw [← converted.stop_eq] at level inside
  have filled := converted.start_lt_stop
  have parts : stream = stream.take site.start ++
      (stream.slice site.range ++ stream.drop site.stop) := by
    have taken := stream.take_append_slice (Nat.le_of_lt filled)
    rw [CallSite.range, ← List.append_assoc, taken, List.take_append_drop]
  have nested := nested_of_tokenize lexed
  rw [parts] at nested
  have whole := nested.replace (level.nested nested) (nested_of_dispatch? lexed dispatched movable)
  have spliced : stream.splice site.range site.replacement =
      stream.take site.start ++ (site.replacement ++ stream.drop site.stop) := by
    rw [TokenStream.splice, CallSite.range, Nat.min_eq_left inside,
      Nat.min_eq_left (Nat.le_of_lt filled), List.append_assoc]
  rwa [spliced]

/-- The delimiters of every replacement match, and they match when it is put in place of its call. -/
theorem replacement_nested {index : Nat} (lexed : tokenize source = .ok stream)
    (dispatched : dispatch? resolver stream index = some site)
    (movable : stream.Movable site.range) :
    Nested site.replacement ∧ Nested (stream.splice site.range site.replacement) ∧
      ∀ inner, CallSite.Within inner site → Nested inner.replacement := by
  obtain ⟨rfl, _⟩ := dispatch?_eq_some dispatched
  refine ⟨nested_of_dispatch? lexed dispatched movable, nested_splice lexed dispatched movable, ?_⟩
  intro inner within
  obtain ⟨innerDispatched, behind, before⟩ := within.bounds dispatched
  refine nested_of_dispatch? lexed innerDispatched (movable.within ?_ before)
  rcases behind with rfl | behind
  · exact Nat.le_refl _
  · exact Nat.le_of_lt behind

end Replacement

section Examples

/-- A call in an array that another call copies. -/
def callInArray : Text :=
  "<?php Mage::getModel('a/b', [1 => Mage::getStoreConfig('x/y', /* ( */ $s[0])]);"

theorem dispatch?_callInArray : ∃ (stream : TokenStream) (site : CallSite),
    tokenize callInArray = .ok stream ∧
    dispatch? conventions.resolver stream 1 = some site ∧ site.nested ≠ [] ∧
    stream.Movable site.range := by
  have computed : (tokenize callInArray).toOption.any (fun stream =>
      (dispatch? conventions.resolver stream 1).any fun site =>
        !site.nested.isEmpty &&
        (stream.slice site.range).all (fun token =>
          token.kind != .attributeStart && token.kind != .question) &&
        (List.range stream.length).all fun index => (stream.legacyCall? index).all fun call =>
          stream[call.stop]?.all (·.kind != .number)) = true := by
    decide +kernel
  simp only [Option.any_eq_true, Bool.and_eq_true, Bool.not_eq_true',
    List.isEmpty_eq_false_iff] at computed
  obtain ⟨stream, lexed, site, dispatched, ⟨nested, plain⟩, apart⟩ := computed
  exact ⟨stream, site, eq_ok_of_toOption lexed, dispatched, nested,
    TokenStream.movable_of_all plain apart⟩

theorem replacement_nested_callInArray : ∃ (stream : TokenStream) (site : CallSite),
    tokenize callInArray = .ok stream ∧
    dispatch? conventions.resolver stream 1 = some site ∧ site.nested ≠ [] ∧
    stream.Movable site.range ∧ Nested site.replacement ∧
    Nested (stream.splice site.range site.replacement) := by
  obtain ⟨stream, site, lexed, dispatched, nested, movable⟩ := dispatch?_callInArray
  obtain ⟨balanced, spliced, _⟩ := replacement_nested lexed dispatched movable
  exact ⟨stream, site, lexed, dispatched, nested, movable, balanced, spliced⟩

/-- An attribute on a line that goes on with an apostrophe in a comment, closed behind the call. -/
def attributeBeforeApostrophe : Text :=
  "<?php Mage::log(#[Pure] fn() => 1 /* isn't */); // isn't"

theorem closersBehind_attributeBeforeApostrophe : ∃ (stream : TokenStream) (site : CallSite),
    tokenize attributeBeforeApostrophe = .ok stream ∧
    dispatch? conventions.resolver stream 1 = some site ∧
    closersBehind [] site.replacement ≠ some [] := by
  have computed : (tokenize attributeBeforeApostrophe).toOption.any (fun stream =>
      (dispatch? conventions.resolver stream 1).any fun site =>
        closersBehind [] site.replacement != some []) = true := by
    decide +kernel
  simp only [Option.any_eq_true, bne_iff_ne] at computed
  obtain ⟨stream, lexed, site, dispatched, unclosed⟩ := computed
  exact ⟨stream, site, eq_ok_of_toOption lexed, dispatched, unclosed⟩

/-- Out of its line, the attribute is a comment, and the list around it stays open. -/
theorem not_replacement_nested_attributeBeforeApostrophe :
    ¬ ∀ (resolver : Resolver) (source : Text) (stream : TokenStream) (index : Nat)
        (site : CallSite), tokenize source = .ok stream →
      dispatch? resolver stream index = some site →
        Nested site.replacement ∧ Nested (stream.splice site.range site.replacement) := by
  intro balanced
  obtain ⟨stream, site, lexed, dispatched, unclosed⟩ := closersBehind_attributeBeforeApostrophe
  have nested := (balanced _ _ _ _ _ lexed dispatched).1
  exact unclosed (nested_iff_closersBehind.mp nested)

end Examples

end ConstructorInjection

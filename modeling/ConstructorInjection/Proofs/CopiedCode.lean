import Mathlib.Data.List.Basic
import Mathlib.Tactic.Common
import ConstructorInjection.Proofs.BareTokens
import ConstructorInjection.Proofs.Partners

/-!
Code and a copy of it in which static calls have given way to accesses of the object. Delimiters match
in the copy as they do in the code, and no comma comes to stand between them.
-/

namespace ConstructorInjection

/-- Tokens that may stand in a list as one item of it. -/
structure IsItem (tokens : List Token) : Prop where
  nested : Nested tokens
  uncut : Uncut 0 tokens

structure IsStaticCall (tokens : List Token) : Prop extends IsItem tokens where
  begins : ∃ name colons others, tokens = name :: colons :: others ∧ name.kind = .identifier ∧
    colons.kind = .doubleColon

structure IsAccess (tokens : List Token) : Prop extends IsItem tokens where
  begins : ∃ object others, tokens = object :: others ∧ object.kind = .variableName

inductive CopiedCode : List Token → List Token → Prop where
  | nil : CopiedCode [] []
  | token (token : Token) {source copy : List Token} (later : CopiedCode source copy) :
      CopiedCode (token :: source) (token :: copy)
  | call {call access source copy : List Token} (isCall : IsStaticCall call)
      (isAccess : IsAccess access) (later : CopiedCode source copy) :
      CopiedCode (call ++ source) (access ++ copy)

namespace IsItem

variable {tokens rest : List Token}

theorem of_plain (plain : ∀ token ∈ tokens,
    (token.kind.isOpener = false ∧ token.kind.isCloser = false) ∧ token.kind ≠ .comma) :
    IsItem tokens := by
  exact ⟨.of_plain fun token member => (plain token member).1,
    .of_plain (fun token member => (plain token member).2) 0⟩

theorem uncut_append_iff (item : IsItem tokens) {depth : Nat} :
    Uncut depth (tokens ++ rest) ↔ Uncut depth rest := by
  have opened := item.nested.level.openBehind depth
  constructor
  · intro whole before comma after cut isComma
    have later := whole (tokens ++ before) comma after (by rw [cut, List.append_assoc]) isComma
    rwa [openBehind_append, opened, Option.bind_some] at later
  · intro later
    have front : Uncut depth tokens := by
      by_cases outside : depth = 0
      · rw [outside]
        exact item.uncut
      · exact item.nested.level.uncut outside
    exact front.append opened later

theorem append (first : IsItem tokens) (second : IsItem rest) : IsItem (tokens ++ rest) :=
  ⟨first.nested.append second.nested, first.uncut_append_iff.mpr second.uncut⟩

theorem pair {opener closer : Token} (partners : opener.kind.closing? = some closer.kind)
    (nested : Nested tokens) : IsItem (opener :: tokens ++ [closer]) :=
  ⟨.pair partners nested .nil, .pair (TokenKind.isOpener_of_closing? partners)
    (TokenKind.isCloser_of_closing? partners) nested.level⟩

end IsItem

/-- A word behind a call may count as a part of it. -/
theorem IsStaticCall.append_word {tokens : List Token} {word : Token} (isCall : IsStaticCall tokens)
    (isWord : word.kind = .identifier) : IsStaticCall (tokens ++ [word]) := by
  have item : IsItem [word] := by
    apply IsItem.of_plain
    intro token member
    rw [List.mem_singleton.mp member, isWord]
    decide
  obtain ⟨name, colons, others, rfl, isName, isColons⟩ := isCall.begins
  exact ⟨isCall.toIsItem.append item, name, colons, others ++ [word], by simp, isName, isColons⟩

namespace CopiedCode

variable {source copy : List Token}

theorem keep (copied : CopiedCode source copy) (tokens : List Token) :
    CopiedCode (tokens ++ source) (tokens ++ copy) := by
  induction tokens with
  | nil => exact copied
  | cons token tokens ih => exact .token token ih

theorem closersBehind (copied : CopiedCode source copy) (awaited : List TokenKind) :
    closersBehind awaited copy = closersBehind awaited source := by
  induction copied generalizing awaited with
  | nil => rfl
  | @token token source copy _ ih =>
      rw [closersBehind_cons awaited token copy, closersBehind_cons awaited token source]
      simp only [ih]
  | call isCall isAccess _ ih =>
      rw [closersBehind_append, closersBehind_append, isCall.nested.closersBehind,
        isAccess.nested.closersBehind, Option.bind_some, Option.bind_some, ih]

theorem nested (copied : CopiedCode source copy) (nestedSource : Nested source) : Nested copy := by
  rw [nested_iff_closersBehind] at nestedSource ⊢
  rwa [copied.closersBehind]

theorem uncut {depth : Nat} (copied : CopiedCode source copy) (uncutSource : Uncut depth source) :
    Uncut depth copy := by
  induction copied generalizing depth with
  | nil => exact uncutSource
  | token token _ ih =>
      rw [uncut_cons] at uncutSource ⊢
      refine ⟨uncutSource.1, ?_⟩
      intro behind opened
      exact ih (uncutSource.2 behind opened)
  | call isCall isAccess _ ih =>
      rw [isCall.uncut_append_iff] at uncutSource
      rw [isAccess.uncut_append_iff]
      exact ih uncutSource

theorem eq_nil (copied : CopiedCode source copy) (none : copy = []) : source = [] := by
  cases copied with
  | nil => rfl
  | token => contradiction
  | call _ isAccess =>
      obtain ⟨object, others, rfl, _⟩ := isAccess.begins
      contradiction

/-- A word that the copy begins with was the first token of the code. -/
theorem behind_word {word : Token} (copied : CopiedCode source (word :: copy))
    (isWord : word.kind = .identifier) :
    ∃ rest, source = word :: rest ∧ CopiedCode rest copy := by
  generalize isCopy : word :: copy = whole at copied
  cases copied with
  | nil => contradiction
  | token token later =>
      cases isCopy
      exact ⟨_, rfl, later⟩
  | call _ isAccess =>
      obtain ⟨object, others, rfl, isObject⟩ := isAccess.begins
      cases isCopy
      rw [isWord] at isObject
      contradiction

end CopiedCode

end ConstructorInjection

import Mathlib.Data.List.Basic
import Mathlib.Tactic.Common
import ConstructorInjection.Balance
import ConstructorInjection.StaticContext

/-!
The depth of delimiters along a token sequence. The searches of the library keep a counter of open
delimiters; here stands what a counter says about sequences whose delimiters match.
-/

namespace ConstructorInjection

namespace TokenKind

theorem isOpener_of_closing? {opener closer : TokenKind} (partners : opener.closing? = some closer) :
    opener.isOpener = true := by
  simp [isOpener, partners]

theorem isCloser_of_closing? {opener closer : TokenKind} (partners : opener.closing? = some closer) :
    closer.isCloser = true := by
  cases opener <;> simp only [closing?, Option.some.injEq, reduceCtorEq] at partners <;>
    subst partners <;> rfl

theorem isOpener_of_isCloser {kind : TokenKind} (closer : kind.isCloser = true) :
    kind.isOpener = false := by
  cases kind <;> simp_all [isCloser, isOpener, closing?]

end TokenKind

/-- How many delimiters are open behind some tokens, when `depth` of them are open in front; none
when a closer comes with no delimiter open. -/
def openBehind (depth : Nat) : List Token → Option Nat
  | [] => some depth
  | token :: rest =>
    if token.kind.isOpener then openBehind (depth + 1) rest
    else if token.kind.isCloser then if depth = 0 then none else openBehind (depth - 1) rest
    else openBehind depth rest

/-- Tokens that close what they open, and nothing else. -/
def Level (tokens : List Token) : Prop :=
  openBehind 0 tokens = some 0

theorem openBehind_append (depth : Nat) (left right : List Token) :
    openBehind depth (left ++ right) = (openBehind depth left).bind (openBehind · right) := by
  induction left generalizing depth with
  | nil => rfl
  | cons token rest ih =>
      simp only [List.cons_append, openBehind, ih]
      split
      · rfl
      · split
        · split <;> rfl
        · rfl

theorem openBehind_add {depth behind : Nat} {tokens : List Token}
    (opened : openBehind depth tokens = some behind) (more : Nat) :
    openBehind (depth + more) tokens = some (behind + more) := by
  induction tokens generalizing depth with
  | nil =>
      cases opened
      rfl
  | cons token rest ih =>
      rw [openBehind] at opened ⊢
      split at opened
      next opener =>
        rw [if_pos opener, Nat.add_right_comm]
        exact ih opened
      next noOpener =>
        rw [if_neg noOpener]
        split at opened
        next closer =>
          rw [if_pos closer]
          split at opened
          next => contradiction
          next positive =>
            rw [if_neg (by omega), Nat.sub_add_comm (by omega)]
            exact ih opened
        next noCloser =>
          rw [if_neg noCloser]
          exact ih opened

theorem Level.openBehind {tokens : List Token} (level : Level tokens) (depth : Nat) :
    openBehind depth tokens = some depth := by
  have shifted := openBehind_add level depth
  rwa [Nat.zero_add] at shifted

theorem Level.nil : Level [] :=
  rfl

theorem Level.append {left right : List Token} (first : Level left) (second : Level right) :
    Level (left ++ right) := by
  rw [Level, openBehind_append, first, Option.bind_some, second]

theorem Level.replace {left old new right : List Token} (level : Level (left ++ (old ++ right)))
    (levelOld : Level old) (levelNew : Level new) : Level (left ++ (new ++ right)) := by
  rw [Level, openBehind_append] at level ⊢
  rw [← level]
  congr 1
  funext depth
  rw [openBehind_append, openBehind_append, levelOld.openBehind, levelNew.openBehind]

theorem Level.plain {token : Token} (noOpener : token.kind.isOpener = false)
    (noCloser : token.kind.isCloser = false) : Level [token] := by
  simp [Level, ConstructorInjection.openBehind, noOpener, noCloser]

theorem Level.pair {opener closer : Token} {inner : List Token}
    (opens : opener.kind.isOpener = true) (closes : closer.kind.isCloser = true)
    (level : Level inner) : Level (opener :: inner ++ [closer]) := by
  have noOpener := TokenKind.isOpener_of_isCloser closes
  rw [Level, List.cons_append, ConstructorInjection.openBehind, if_pos opens, openBehind_append,
    level.openBehind]
  simp [ConstructorInjection.openBehind, noOpener, closes]

theorem Nested.of_plain {tokens : List Token}
    (plain : ∀ token ∈ tokens, token.kind.isOpener = false ∧ token.kind.isCloser = false) :
    Nested tokens := by
  induction tokens with
  | nil => exact .nil
  | cons token rest ih =>
      obtain ⟨⟨noOpener, noCloser⟩, plainRest⟩ := List.forall_mem_cons.mp plain
      exact .plain noOpener noCloser (ih plainRest)

theorem Nested.append {left right : List Token} (first : Nested left) (second : Nested right) :
    Nested (left ++ right) := by
  induction first with
  | nil => exact second
  | plain noOpener noCloser _ ih => exact .plain noOpener noCloser ih
  | pair partners nested _ _ ih =>
      rw [List.append_assoc]
      exact .pair partners nested ih

theorem Nested.level {tokens : List Token} (nested : Nested tokens) : Level tokens := by
  induction nested with
  | nil => exact Level.nil
  | plain noOpener noCloser _ ih => exact (Level.plain noOpener noCloser).append ih
  | @pair opener closer inner rest partners _ _ innerIh restIh =>
      have opens := TokenKind.isOpener_of_closing? partners
      have closes := TokenKind.isCloser_of_closing? partners
      have joined := (Level.pair opens closes innerIh).append restIh
      simpa using joined

namespace TokenStream

/-- The closer that a search finds is the first one that stands at the level of its opener. -/
theorem closerDistance?_eq_some_iff {depth distance : Nat} {tokens : List Token} :
    closerDistance? depth tokens = some distance ↔
      ∃ inner closer rest, tokens = inner ++ closer :: rest ∧ inner.length = distance ∧
        closer.kind.isCloser = true ∧ openBehind depth inner = some 0 := by
  induction tokens generalizing depth distance with
  | nil => simp [closerDistance?]
  | cons token tokens ih =>
      have further (next : Nat)
          (same : ∀ inner, openBehind depth (token :: inner) = openBehind next inner) :
          (closerDistance? next tokens).map (· + 1) = some distance ↔
            ∃ inner closer rest, token :: tokens = (token :: inner) ++ closer :: rest ∧
              (token :: inner).length = distance ∧ closer.kind.isCloser = true ∧
              openBehind depth (token :: inner) = some 0 := by
        simp only [Option.map_eq_some_iff, ih, same, List.cons_append, List.cons.injEq, true_and,
          List.length_cons]
        constructor
        · rintro ⟨_, ⟨inner, closer, rest, cut, rfl, closes, opened⟩, rfl⟩
          exact ⟨inner, closer, rest, cut, rfl, closes, opened⟩
        · rintro ⟨inner, closer, rest, cut, rfl, closes, opened⟩
          exact ⟨_, ⟨inner, closer, rest, cut, rfl, closes, opened⟩, rfl⟩
      have through (notLast : token.kind.isCloser = true → depth ≠ 0) :
          (∃ inner closer rest, token :: tokens = (token :: inner) ++ closer :: rest ∧
              (token :: inner).length = distance ∧ closer.kind.isCloser = true ∧
              openBehind depth (token :: inner) = some 0) ↔
            ∃ inner closer rest, token :: tokens = inner ++ closer :: rest ∧
              inner.length = distance ∧ closer.kind.isCloser = true ∧
              openBehind depth inner = some 0 := by
        constructor
        · rintro ⟨inner, closer, rest, found⟩
          exact ⟨token :: inner, closer, rest, found⟩
        · rintro ⟨inner, closer, rest, cut, length, closes, opened⟩
          cases inner with
          | nil =>
              cases cut
              cases opened
              exact absurd rfl (notLast closes)
          | cons first inner =>
              cases cut
              exact ⟨inner, closer, rest, rfl, length, closes, opened⟩
      rw [closerDistance?.eq_def]
      simp only
      split
      next opener =>
        rw [further (depth + 1) fun inner => by rw [openBehind, if_pos opener]]
        refine through fun closes => ?_
        rw [TokenKind.isOpener_of_isCloser closes] at opener
        contradiction
      next noOpener =>
        split
        next closes =>
          split
          next =>
            simp only [Option.some.injEq]
            constructor
            · rintro rfl
              exact ⟨[], token, tokens, rfl, rfl, closes, rfl⟩
            · rintro ⟨inner, closer, rest, cut, length, _, opened⟩
              cases inner with
              | nil => exact length
              | cons first inner =>
                  cases cut
                  rw [openBehind, if_neg noOpener, if_pos closes] at opened
                  contradiction
          next depth =>
            rw [further depth fun inner => by
              rw [openBehind, if_neg noOpener, if_pos closes]
              rfl]
            exact through fun _ => Nat.succ_ne_zero depth
        next noCloser =>
          rw [further depth fun inner => by
            rw [openBehind, if_neg noOpener, if_neg noCloser]]
          exact through fun closes => absurd closes noCloser

theorem expressionLength_append {depth behind : Nat} {tokens : List Token}
    (opened : openBehind depth tokens = some behind) (rest : List Token) :
    expressionLength (depth + 1) (tokens ++ rest) =
      tokens.length + expressionLength (behind + 1) rest := by
  induction tokens generalizing depth with
  | nil =>
      cases opened
      simp
  | cons token tokens ih =>
      rw [List.cons_append, expressionLength, List.length_cons]
      rw [openBehind] at opened
      split at opened
      next opener =>
        rw [if_pos opener, ih opened]
        omega
      next noOpener =>
        rw [if_neg noOpener]
        split at opened
        next closer =>
          rw [if_pos closer]
          split at opened
          next => contradiction
          next positive =>
            have inner := ih opened
            rw [Nat.sub_add_cancel (by omega)] at inner
            rw [inner]
            omega
        next noCloser =>
          rw [if_neg noCloser, if_neg (by simp), ih opened]
          omega

end TokenStream

end ConstructorInjection

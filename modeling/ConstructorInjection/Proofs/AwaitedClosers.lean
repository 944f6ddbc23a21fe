import Mathlib.Data.List.Basic
import Mathlib.Tactic.Common
import ConstructorInjection.Proofs.Lexing
import ConstructorInjection.Proofs.Nesting

/-!
The closers that are still awaited while tokens are read. The check of a file's delimiters is a run
over this stack, and it passes just the nested token sequences.
-/

namespace ConstructorInjection

/-- The closers that are awaited behind some tokens, the innermost first; none when a closer comes
that is not the one awaited. -/
def closersBehind (awaited : List TokenKind) : List Token → Option (List TokenKind)
  | [] => some awaited
  | token :: rest =>
    match token.kind.closing? with
    | some closer => closersBehind (closer :: awaited) rest
    | none =>
      if token.kind.isCloser then
        if awaited.head? = some token.kind then closersBehind awaited.tail rest else none
      else closersBehind awaited rest

theorem closersBehind_append (awaited : List TokenKind) (left right : List Token) :
    closersBehind awaited (left ++ right) =
      (closersBehind awaited left).bind (closersBehind · right) := by
  induction left generalizing awaited with
  | nil => rfl
  | cons token rest ih =>
      simp only [List.cons_append, closersBehind, ih]
      split
      · rfl
      · split
        · split <;> rfl
        · rfl

theorem TokenKind.closing?_of_isCloser {kind : TokenKind} (closer : kind.isCloser = true) :
    kind.closing? = none := by
  cases kind <;> first | rfl | contradiction

theorem closersBehind_opener {awaited : List TokenKind} {token : Token} {closer : TokenKind}
    (opens : token.kind.closing? = some closer) (rest : List Token) :
    closersBehind awaited (token :: rest) = closersBehind (closer :: awaited) rest := by
  rw [closersBehind, opens]

theorem closersBehind_closer {awaited : List TokenKind} {token : Token}
    (closes : token.kind.isCloser = true) (rest : List Token) :
    closersBehind (token.kind :: awaited) (token :: rest) = closersBehind awaited rest := by
  rw [closersBehind, TokenKind.closing?_of_isCloser closes]
  simp [closes]

theorem closersBehind_plain {awaited : List TokenKind} {token : Token}
    (noOpener : token.kind.isOpener = false) (noCloser : token.kind.isCloser = false)
    (rest : List Token) :
    closersBehind awaited (token :: rest) = closersBehind awaited rest := by
  have noClosing : token.kind.closing? = none := by
    simpa [TokenKind.isOpener] using noOpener
  rw [closersBehind, noClosing]
  simp [noCloser]

theorem Nested.closersBehind {tokens : List Token} (nested : Nested tokens)
    (awaited : List TokenKind) : closersBehind awaited tokens = some awaited := by
  induction nested generalizing awaited with
  | nil => rfl
  | plain noOpener noCloser _ ih => rw [closersBehind_plain noOpener noCloser, ih]
  | pair partners _ _ innerIh restIh =>
      rw [List.cons_append, closersBehind_opener partners, closersBehind_append, innerIh,
        Option.bind_some, closersBehind_closer (TokenKind.isCloser_of_closing? partners), restIh]

/-- Up to the closer that is awaited first, tokens are nested. -/
theorem nested_of_closersBehind {awaited : List TokenKind} {tokens : List Token}
    (closed : closersBehind awaited tokens = some []) :
    match awaited with
    | [] => Nested tokens
    | kind :: outer => ∃ inner closer rest, tokens = inner ++ closer :: rest ∧ Nested inner ∧
        closer.kind = kind ∧ closersBehind outer rest = some [] := by
  generalize size : tokens.length = length
  induction length using Nat.strongRecOn generalizing awaited tokens with
  | ind length ih =>
      cases tokens with
      | nil =>
          cases closed
          exact .nil
      | cons token rest =>
          rw [closersBehind] at closed
          split at closed
          next kind partners =>
            obtain ⟨inner, closer, others, rfl, nestedInner, isKind, closedOthers⟩ :=
              ih _ (by rw [← size]; simp) closed rfl
            have shorter : others.length < length := by
              rw [← size]
              simp
              omega
            have pair {behind : List Token} (nested : Nested behind) :
                Nested (token :: inner ++ closer :: behind) :=
              .pair (by rw [partners, isKind]) nestedInner nested
            have later := ih _ shorter closedOthers rfl
            cases awaited with
            | nil => exact pair later
            | cons kind outer =>
                obtain ⟨between, last, behind, rfl, nestedBetween, isLast, closedBehind⟩ := later
                exact ⟨token :: inner ++ closer :: between, last, behind, by simp,
                  pair nestedBetween, isLast, closedBehind⟩
          next noOpener =>
            have isOpener : token.kind.isOpener = false := by rw [TokenKind.isOpener, noOpener]; rfl
            split at closed
            next closes =>
              split at closed
              next expected =>
                obtain ⟨outer, rfl⟩ := List.head?_eq_some_iff.mp expected
                exact ⟨[], token, rest, rfl, .nil, rfl, closed⟩
              next => contradiction
            next noCloser =>
              rw [Bool.not_eq_true] at noCloser
              have later := ih _ (by rw [← size]; simp) closed rfl
              cases awaited with
              | nil => exact .plain isOpener noCloser later
              | cons kind outer =>
                  obtain ⟨inner, closer, others, rfl, nested, isKind, closedOthers⟩ := later
                  exact ⟨token :: inner, closer, others, rfl, .plain isOpener noCloser nested,
                    isKind, closedOthers⟩

theorem nested_iff_closersBehind {tokens : List Token} :
    Nested tokens ↔ closersBehind [] tokens = some [] :=
  ⟨fun nested => nested.closersBehind [], nested_of_closersBehind⟩

theorem nestingError?_eq_none_iff_closersBehind {opened : List OpenDelimiter}
    {awaited : List TokenKind} {offset : Nat} {tokens : List Token}
    (same : opened.map (·.kind.closing?) = awaited.map some) :
    nestingError? opened offset tokens = none ↔ closersBehind awaited tokens = some [] := by
  induction tokens generalizing opened awaited offset with
  | nil =>
      cases opened with
      | nil =>
          have empty : awaited = [] := by simpa using same.symm
          simp [nestingError?, closersBehind, empty]
      | cons innermost outer =>
          cases awaited with
          | nil => simp at same
          | cons closer closers => simp [nestingError?, closersBehind]
  | cons token rest ih =>
      rw [nestingError?, closersBehind]
      simp only
      split
      next opens =>
        obtain ⟨closer, partners⟩ := Option.isSome_iff_exists.mp opens
        rw [partners]
        exact ih (by simp [OpenDelimiter.ofToken, partners, same])
      next noOpener =>
        have noClosing : token.kind.closing? = none := by simpa [TokenKind.isOpener] using noOpener
        rw [noClosing]
        simp only
        split
        next closes =>
          cases opened with
          | nil =>
              have empty : awaited = [] := by simpa using same.symm
              simp [empty]
          | cons innermost outer =>
              cases awaited with
              | nil => simp at same
              | cons closer closers =>
                  simp only [List.map_cons, List.cons.injEq] at same
                  simp only [same.1, Option.some.injEq, List.head?_cons, List.tail_cons]
                  split
                  next => exact ih same.2
                  next => simp
        next => exact ih same

/-- The check of delimiters refuses just the sequences that are not nested. -/
theorem nestingError?_eq_none_iff {offset : Nat} {tokens : List Token} :
    nestingError? [] offset tokens = none ↔ Nested tokens := by
  rw [@nestingError?_eq_none_iff_closersBehind [] [] _ _ rfl, nested_iff_closersBehind]

/-- Tokens that do not reach the outer delimiters leave them alone. -/
theorem closersBehind_within {inner outer behind : List TokenKind} {depth : Nat}
    {tokens : List Token} (closed : closersBehind (inner ++ outer) tokens = some behind)
    (opened : openBehind inner.length tokens = some depth) :
    ∃ still, closersBehind inner tokens = some still ∧ still.length = depth := by
  induction tokens generalizing inner with
  | nil =>
      cases opened
      exact ⟨inner, rfl, rfl⟩
  | cons token rest ih =>
      rw [closersBehind] at closed ⊢
      rw [openBehind] at opened
      split at closed
      next closer partners =>
        rw [if_pos (TokenKind.isOpener_of_closing? partners)] at opened
        exact @ih (closer :: inner) closed opened
      next noOpener =>
        rw [TokenKind.isOpener, noOpener, Option.isSome_none, if_neg Bool.false_ne_true] at opened
        split at closed
        next closes =>
          rw [if_pos closes] at opened ⊢
          cases inner with
          | nil => simp at opened
          | cons closer inner =>
              rw [List.cons_append, List.head?_cons, List.tail_cons] at closed
              rw [List.head?_cons, List.tail_cons]
              by_cases expected : some closer = some token.kind
              · rw [if_pos expected] at closed ⊢
                exact ih closed (by simpa using opened)
              · rw [if_neg expected] at closed
                contradiction
        next noCloser =>
          rw [if_neg noCloser] at opened ⊢
          exact ih closed opened

/-- A level part of nested tokens is nested. -/
theorem Level.nested {before tokens after : List Token} (level : Level tokens)
    (nested : Nested (before ++ (tokens ++ after))) : Nested tokens := by
  have closed := nested_iff_closersBehind.mp nested
  simp only [closersBehind_append, Option.bind_eq_some_iff] at closed
  obtain ⟨awaited, _, behind, closedTokens, _⟩ := closed
  obtain ⟨still, closedAlone, length⟩ := @closersBehind_within [] awaited _ _ _ closedTokens level
  rw [List.length_eq_zero_iff.mp length] at closedAlone
  exact nested_iff_closersBehind.mpr closedAlone

/-- Nested tokens may give way to others. -/
theorem Nested.replace {left old new right : List Token}
    (nested : Nested (left ++ (old ++ right))) (nestedOld : Nested old) (nestedNew : Nested new) :
    Nested (left ++ (new ++ right)) := by
  rw [nested_iff_closersBehind] at nested ⊢
  simp only [closersBehind_append, nestedOld.closersBehind, nestedNew.closersBehind] at nested ⊢
  exact nested

theorem nested_of_tokenize {source : Text} {stream : TokenStream}
    (lexed : tokenize source = .ok stream) : Nested stream :=
  nestingError?_eq_none_iff.mp (tokenize_eq_ok_iff.mp lexed).2

end ConstructorInjection

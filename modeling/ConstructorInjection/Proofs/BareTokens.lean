import Mathlib.Data.List.Basic
import Mathlib.Tactic.Common
import ConstructorInjection.Proofs.AwaitedClosers
import ConstructorInjection.Proofs.CallCoverage

/-!
The code in a token sequence: its tokens without the blanks and comments, apart from their lines and
from what makes one word a keyword and another one a name. Delimiters and commas are where they were.
-/

namespace ConstructorInjection

/-- Names and keywords, between which the tokens before decide. -/
def TokenKind.isWord (kind : TokenKind) : Bool :=
  kind.isName || kind == .keyword

theorem TokenKind.plain_of_isWord {kind : TokenKind} (word : kind.isWord = true) :
    kind.isOpener = false ∧ kind.isCloser = false ∧ ∀ mode : LexMode, mode.after kind = mode := by
  cases kind <;> first | contradiction | exact ⟨rfl, rfl, fun _ => rfl⟩

def TokenKind.bare (kind : TokenKind) : TokenKind :=
  if kind.isWord then .identifier else kind

/-- A token wherever it stands. -/
def Token.bare (token : Token) : Token :=
  ⟨token.kind.bare, token.text, 0⟩

namespace Token

variable (token : Token)

@[simp]
theorem closing?_bare : token.bare.kind.closing? = token.kind.closing? := by
  obtain ⟨kind, _, _⟩ := token
  cases kind <;> rfl

@[simp]
theorem isOpener_bare : token.bare.kind.isOpener = token.kind.isOpener := by
  rw [TokenKind.isOpener, closing?_bare, TokenKind.isOpener]

@[simp]
theorem isCloser_bare : token.bare.kind.isCloser = token.kind.isCloser := by
  obtain ⟨kind, _, _⟩ := token
  cases kind <;> rfl

theorem kind_bare_of_isCloser (closes : token.kind.isCloser = true) :
    token.bare.kind = token.kind := by
  obtain ⟨kind, _, _⟩ := token
  cases kind <;> first | rfl | contradiction

theorem bare_eq_comma_iff : token.bare.kind = .comma ↔ token.kind = .comma := by
  obtain ⟨kind, _, _⟩ := token
  simp only [bare]
  cases kind <;> decide

end Token

def codeOf (tokens : List Token) : List Token :=
  (tokens.filter (!·.isTrivia)).map Token.bare

theorem codeOf_append (left right : List Token) : codeOf (left ++ right) = codeOf left ++ codeOf right := by
  rw [codeOf, List.filter_append, List.map_append, codeOf, codeOf]

theorem codeOf_cons (token : Token) (rest : List Token) :
    codeOf (token :: rest) = codeOf [token] ++ codeOf rest :=
  codeOf_append [token] rest

theorem codeOf_significant {token : Token} (significant : token.isTrivia = false) :
    codeOf [token] = [token.bare] := by
  simp [codeOf, significant]

theorem codeOf_blank {tokens : List Token} (blank : Blank tokens) : codeOf tokens = [] := by
  rw [codeOf, List.filter_eq_nil_iff.mpr, List.map_nil]
  intro token member
  simp [blank token member]

theorem codeOf_eq_nil_iff {tokens : List Token} : codeOf tokens = [] ↔ Blank tokens := by
  simp [codeOf, Blank]

theorem codeOf_word {kind : TokenKind} (word : kind.isWord = true) (text : Text) (line : Nat) :
    codeOf [⟨kind, text, line⟩] = [⟨.identifier, text, 0⟩] := by
  have significant : Token.isTrivia ⟨kind, text, line⟩ = false := by
    cases kind <;> first | rfl | contradiction
  rw [codeOf_significant significant, Token.bare, TokenKind.bare, if_pos word]

theorem codeOf_of_kind {kind other : TokenKind}
    (same : kind = other ∨ kind.isWord = true ∧ other.isWord = true) (text : Text)
    (line otherLine : Nat) : codeOf [⟨kind, text, line⟩] = codeOf [⟨other, text, otherLine⟩] := by
  rcases same with rfl | ⟨word, otherWord⟩
  · simp only [codeOf, List.filter_cons, Token.isTrivia]
    split <;> rfl
  · rw [codeOf_word word, codeOf_word otherWord]

theorem codeOf_relined (tokens : List Token) :
    codeOf (tokens.map fun token => { token with line := 0 }) = codeOf tokens := by
  induction tokens with
  | nil => rfl
  | cons token rest ih =>
      rw [List.map_cons, codeOf_cons, ih, codeOf_of_kind (.inl rfl) _ _ token.line, ← codeOf_cons]

theorem closersBehind_cons (awaited : List TokenKind) (token : Token) (rest : List Token) :
    closersBehind awaited (token :: rest) =
      (closersBehind awaited [token]).bind (closersBehind · rest) :=
  closersBehind_append awaited [token] rest

theorem closersBehind_bare (awaited : List TokenKind) (token : Token) :
    closersBehind awaited [token.bare] = closersBehind awaited [token] := by
  simp only [closersBehind, Token.closing?_bare, Token.isCloser_bare]
  split
  next => rfl
  next =>
    split
    next closes => simp only [token.kind_bare_of_isCloser closes]
    next => rfl

theorem Blank.nested {tokens : List Token} (blank : Blank tokens) : Nested tokens := by
  induction tokens with
  | nil => exact .nil
  | cons token rest ih =>
      obtain ⟨trivia, blank⟩ := List.forall_mem_cons.mp blank
      rw [Token.isTrivia] at trivia
      refine .plain ?_ ?_ (ih blank) <;> cases kind : token.kind <;> rw [kind] at trivia <;>
        first | contradiction | rfl

theorem closersBehind_codeOf (awaited : List TokenKind) (tokens : List Token) :
    closersBehind awaited (codeOf tokens) = closersBehind awaited tokens := by
  induction tokens generalizing awaited with
  | nil => rfl
  | cons token rest ih =>
      have single : closersBehind awaited (codeOf [token]) = closersBehind awaited [token] := by
        by_cases trivia : token.isTrivia = true
        · have blank : Blank [token] := by simpa [Blank] using trivia
          rw [codeOf_blank blank, blank.nested.closersBehind]
          rfl
        · rw [Bool.not_eq_true] at trivia
          rw [codeOf_significant trivia, closersBehind_bare]
      rw [codeOf_cons, closersBehind_append, single, closersBehind_cons awaited token rest]
      simp only [ih]

theorem nested_codeOf {tokens : List Token} : Nested (codeOf tokens) ↔ Nested tokens := by
  rw [nested_iff_closersBehind, nested_iff_closersBehind, closersBehind_codeOf]

theorem openBehind_bare (depth : Nat) (token : Token) :
    openBehind depth [token.bare] = openBehind depth [token] := by
  simp only [openBehind, Token.isOpener_bare, Token.isCloser_bare]

theorem Uncut.codeOf {tokens : List Token} {depth : Nat} (uncut : Uncut depth tokens) :
    Uncut depth (codeOf tokens) := by
  induction tokens generalizing depth with
  | nil => exact uncut
  | cons token rest ih =>
      obtain ⟨first, later⟩ := uncut_cons.mp uncut
      rw [codeOf_cons]
      by_cases trivia : token.isTrivia = true
      · have blank : Blank [token] := by simpa [Blank] using trivia
        rw [codeOf_blank blank]
        exact ih (later depth (blank.level.openBehind depth))
      · rw [Bool.not_eq_true] at trivia
        rw [codeOf_significant trivia, List.singleton_append, uncut_cons, openBehind_bare]
        refine ⟨fun isComma => first (token.bare_eq_comma_iff.mp isComma), ?_⟩
        intro behind opened
        exact ih (later behind opened)

end ConstructorInjection

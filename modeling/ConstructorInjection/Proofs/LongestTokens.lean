import ConstructorInjection.Proofs.CodeTokens
import ConstructorInjection.Proofs.Lossless

/-!
The lexer cuts the declared tokens off a text, one after the other, until the text is used up or no
token stands at the start of what is left.
-/

namespace ConstructorInjection

/-- The first token of a text, of some kind and with so many characters. -/
def IsToken (mode : LexMode) (memberName : Bool) (input : Text) (kind : TokenKind)
    (length : Nat) : Prop :=
  match mode with
  | .html => (Piece.ofHtml input).kind = kind ∧ (Piece.ofHtml input).length = length
  | .code => IsCodeToken memberName input kind length

/-- Tokens at the start of a text, and the text behind them. Each of them is the first token of what
the tokens before it leave. -/
inductive LexesUntil : LexMode → Bool → Place → Text → List Token → Text → Prop where
  | done {mode : LexMode} {memberName : Bool} {place : Place} {rest : Text} :
      LexesUntil mode memberName place rest [] rest
  | step {mode : LexMode} {memberName : Bool} {place : Place} {input rest : Text}
      {kind : TokenKind} {length : Nat} {tokens : List Token} (nonempty : input ≠ [])
      (isToken : IsToken mode memberName input kind length)
      (later : LexesUntil (mode.after kind) (memberNameAfter memberName kind (input.take length))
        (place.after (input.take length)) (input.drop length) tokens rest) :
      LexesUntil mode memberName place input
        (⟨kind, input.take length, place.line⟩ :: tokens) rest

def modeBehind (mode : LexMode) (tokens : List Token) : LexMode :=
  tokens.foldl (fun memory token => memory.after token.kind) mode

section Pieces

variable {mode : LexMode} {memberName : Bool} {input : Text}

theorem isToken_iff {kind : TokenKind} {length : Nat} :
    IsToken mode memberName input kind length ↔
      ∃ piece, Piece.next mode memberName input = .ok piece ∧ piece.kind = kind ∧
        piece.length = length := by
  cases mode with
  | html => simp [IsToken, Piece.next]
  | code => exact isCodeToken_iff

theorem next_eq_error {refusal : Refusal}
    (next : Piece.next mode memberName input = .error refusal) :
    mode = .code ∧ Piece.ofCode memberName input = .error refusal := by
  cases mode with
  | html => contradiction
  | code => exact ⟨rfl, next⟩

theorem Lexeme.Takes.length_le {lexeme : Lexeme} {rest : Text} {extent : Nat}
    (takes : lexeme.Takes rest extent) : extent ≤ rest.length := by
  have closed {body more : Nat} (within : body ≤ rest.length)
      (behind : more ≤ (rest.drop body).length) : body + more ≤ rest.length := by
    rw [List.length_drop] at behind
    omega
  cases lexeme with
  | whole kind | name =>
      cases takes
      exact Nat.zero_le _
  | lineComment => exact takes.inside
  | attributeOrComment =>
      rw [Lexeme.Takes] at takes
      split at takes
      · cases takes
        exact Nat.zero_le _
      · exact takes.inside
  | blockComment =>
      obtain ⟨body, cut, rfl⟩ := takes
      exact closed cut.inside cut.cuts.length_le
  | quoted quote =>
      obtain ⟨body, cut, rfl⟩ := takes
      exact closed cut.inside cut.cuts.2.length_le
  | heredoc =>
      obtain ⟨label, opener, text, body, closing, rfl, _, cut, ⟨_, more, _, whole, _⟩, rfl⟩ := takes
      have inside := cut.inside
      have behind := congrArg List.length whole
      rw [List.length_drop, List.length_append] at behind
      rw [List.length_append]
      omega

theorem OpenTag.length_le {tag : OpenTag} (found : openTagAt? input = some tag) :
    tag.length ≤ input.length := by
  unfold openTagAt? at found
  split at found
  · cases found
    simp
  · split at found
    · split at found <;> cases found <;> simp
    · contradiction
  · contradiction

theorem htmlExtent_le_length (text : Text) : htmlExtent text ≤ text.length := by
  induction text with
  | nil => exact Nat.le_refl _
  | cons first rest ih =>
      rw [htmlExtent]
      split
      · exact Nat.zero_le _
      · exact Nat.succ_le_succ ih

/-- A token does not reach beyond its text. -/
theorem Piece.length_le {piece : Piece} (next : Piece.next mode memberName input = .ok piece)
    (nonempty : input ≠ []) : piece.length ≤ input.length := by
  cases mode with
  | html =>
      cases next
      have positive := List.length_pos_iff.mpr nonempty
      have within := htmlExtent_le_length (input.drop 1)
      rcases Piece.ofHtml_cases input with ⟨tag, found, _, size⟩ | ⟨_, _, size⟩
      · exact size ▸ OpenTag.length_le found
      · rw [size]
        rw [List.length_drop] at within
        omega
  | code =>
      generalize isKind : piece.kind = kind
      generalize isLength : piece.length = length
      cases isToken_iff.mpr ⟨piece, next, isKind, isLength⟩ with
      | matched _ longest takes =>
          have inside := longest.inside
          have further := takes.length_le
          rw [List.length_drop] at further
          omega
      | spoiled isSpoiled =>
          obtain ⟨rest, rfl, _⟩ := isSpoiled
          simp

end Pieces

theorem Place.after_append (place : Place) (first second : Text) :
    place.after (first ++ second) = (place.after first).after second := by
  simp only [after, Text.byteLength_append, List.count_append, Nat.add_assoc]

section Runs

variable {mode : LexMode} {memberName : Bool} {place : Place} {input rest : Text}
  {tokens : List Token}

/-- The tokens behind a cut are lexed in the mode that the tokens in front of it leave. -/
theorem Lexes.behind {before after : List Token}
    (lexes : Lexes mode memberName place input (before ++ after)) :
    Lexes (modeBehind mode before) (memberNameBehind memberName before)
      (place.after (textOf before)) (textOf after) after := by
  induction before generalizing mode memberName place input with
  | nil =>
      rw [show textOf after = input from lexes.textOf_eq]
      exact lexes
  | cons token before ih =>
      cases lexes with
      | step nonempty next later =>
          rw [textOf_cons, Place.after_append]
          exact ih later

namespace LexesUntil

theorem eq_append (lexes : LexesUntil mode memberName place input tokens rest) :
    input = textOf tokens ++ rest := by
  induction lexes with
  | done => rfl
  | step _ _ _ ih => rw [textOf_cons, List.append_assoc, ← ih, List.take_append_drop]

/-- The lexer goes on with the text behind the tokens. -/
theorem lexFrom_eq (lexes : LexesUntil mode memberName place input tokens rest) :
    lexFrom mode memberName place input =
      (lexFrom (modeBehind mode tokens) (memberNameBehind memberName tokens)
        (place.after (textOf tokens)) rest).map (tokens ++ ·) := by
  induction lexes with
  | @done mode memberName place rest =>
      show _ = (lexFrom mode memberName place rest).map _
      cases lexFrom mode memberName place rest <;> rfl
  | @step mode memberName place input rest kind length tokens nonempty isToken later ih =>
      obtain ⟨piece, next, rfl, rfl⟩ := isToken_iff.mp isToken
      rw [lexFrom, if_neg nonempty, textOf_cons, place.after_append]
      simp only [next, ih]
      simp only [modeBehind, memberNameBehind, List.foldl_cons]
      cases lexFrom _ _ _ rest <;> rfl

theorem lexFrom_eq_ok (lexes : LexesUntil mode memberName place input tokens []) :
    lexFrom mode memberName place input = .ok tokens := by
  rw [lexes.lexFrom_eq, lexFrom, if_pos rfl]
  exact congrArg Except.ok (List.append_nil tokens)

theorem lexFrom_eq_error (lexes : LexesUntil mode memberName place input tokens rest)
    (code : modeBehind mode tokens = .code) {fault : LexFault} (isFault : IsCodeFault rest fault) :
    ∃ stop, lexFrom mode memberName place input =
      .error ⟨fault, (place.after (textOf tokens)).line,
        (place.after (textOf tokens)).offset, stop⟩ := by
  have nonempty := isFault.ne_nil
  obtain ⟨refusal, next, rfl⟩ :=
    (isCodeFault_iff (memberNameBehind memberName tokens) nonempty).mp isFault
  refine ⟨(refusal.toError (place.after (textOf tokens)) rest).span.stop, ?_⟩
  rw [lexes.lexFrom_eq, code, lexFrom, if_neg nonempty, Piece.next, next]
  rfl

end LexesUntil

/-- There are tokens up to where the text ends or has none any more. -/
theorem exists_lexesUntil (mode : LexMode) (memberName : Bool) (place : Place) (input : Text) :
    ∃ tokens rest, LexesUntil mode memberName place input tokens rest ∧
      (rest = [] ∨ modeBehind mode tokens = .code ∧ ∃ fault, IsCodeFault rest fault) := by
  induction mode, memberName, place, input using lexFrom.induct with
  | case1 mode memberName place => exact ⟨[], [], .done, .inl rfl⟩
  | case2 mode memberName place input nonempty refusal next =>
      obtain ⟨rfl, refused⟩ := next_eq_error next
      exact ⟨[], input, .done, .inr ⟨rfl, _, Piece.isCodeFault nonempty refused⟩⟩
  | case3 mode memberName place input nonempty piece next text ih =>
      obtain ⟨tokens, rest, lexes, stops⟩ := ih
      have isToken := isToken_iff.mpr ⟨piece, next, rfl, rfl⟩
      exact ⟨_, rest, .step nonempty isToken lexes, stops⟩

/-- Each token of code is the longest match, with as much of the text behind it as it takes, and
lexing fails at the first place where there is no such token. -/
theorem lexing_longest_match (mode : LexMode) (memberName : Bool) (place : Place) (input : Text) :
    (∀ tokens, lexFrom mode memberName place input = .ok tokens ↔
      LexesUntil mode memberName place input tokens []) ∧
    ∀ (fault : LexFault) (reached : Place),
      (∃ stop, lexFrom mode memberName place input =
        .error ⟨fault, reached.line, reached.offset, stop⟩) ↔
      ∃ tokens rest, LexesUntil mode memberName place input tokens rest ∧
        modeBehind mode tokens = .code ∧ IsCodeFault rest fault ∧
        reached = place.after (textOf tokens) := by
  obtain ⟨found, rest, lexes, stops⟩ := exists_lexesUntil mode memberName place input
  refine ⟨fun tokens => ⟨fun result => ?_, LexesUntil.lexFrom_eq_ok⟩, fun fault reached => ⟨?_, ?_⟩⟩
  · rcases stops with rfl | ⟨code, fault, isFault⟩
    · obtain rfl := Except.ok.inj (result.symm.trans lexes.lexFrom_eq_ok)
      exact lexes
    · obtain ⟨stop, failed⟩ := lexes.lexFrom_eq_error code isFault
      rw [result] at failed
      contradiction
  · obtain ⟨offset, line⟩ := reached
    rintro ⟨stop, failed⟩
    rcases stops with rfl | ⟨code, cause, isFault⟩
    · rw [lexes.lexFrom_eq_ok] at failed
      contradiction
    · obtain ⟨last, also⟩ := lexes.lexFrom_eq_error code isFault
      rw [failed] at also
      simp only [Except.error.injEq, LexError.mk.injEq, Span.mk.injEq] at also
      obtain ⟨rfl, rfl, rfl, -⟩ := also
      exact ⟨found, rest, lexes, code, isFault, rfl⟩
  · rintro ⟨tokens, behind, lexesToo, code, isFault, rfl⟩
    exact lexesToo.lexFrom_eq_error code isFault

end Runs

end ConstructorInjection

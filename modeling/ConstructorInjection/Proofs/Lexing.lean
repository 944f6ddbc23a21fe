import ConstructorInjection.Balance

/-!
The lexer as a relation between a text and the pieces that are cut off it one after the other, and
what every token of a text owes to the tokens before it.
-/

namespace ConstructorInjection

inductive Lexes : LexMode → Bool → Place → Text → List Token → Prop where
  | done {mode : LexMode} {memberName : Bool} {place : Place} :
      Lexes mode memberName place [] []
  | step {mode : LexMode} {memberName : Bool} {place : Place} {input : Text} {piece : Piece}
      {rest : List Token} (nonempty : input ≠ [])
      (next : Piece.next mode memberName input = .ok piece)
      (later : Lexes (mode.after piece.kind)
        (memberNameAfter memberName piece.kind (input.take piece.length))
        (place.after (input.take piece.length)) (input.drop piece.length) rest) :
      Lexes mode memberName place input
        (⟨piece.kind, input.take piece.length, place.line⟩ :: rest)

theorem Lexes.of_lexFrom {mode : LexMode} {memberName : Bool} {place : Place} {input : Text}
    {tokens : List Token} (lexed : lexFrom mode memberName place input = .ok tokens) :
    Lexes mode memberName place input tokens := by
  induction mode, memberName, place, input using lexFrom.induct generalizing tokens with
  | case1 mode memberName place =>
      rw [lexFrom, if_pos rfl] at lexed
      cases lexed
      exact .done
  | case2 mode memberName place input nonempty refusal next =>
      rw [lexFrom, if_neg nonempty, next] at lexed
      cases lexed
  | case3 mode memberName place input nonempty piece next text =>
      rename_i ih
      rw [lexFrom, if_neg nonempty, next] at lexed
      simp only [Except.map] at lexed
      split at lexed
      · cases lexed
      · rename_i later result
        cases lexed
        exact .step nonempty next (ih result)

theorem Lexes.lexFrom_eq {mode : LexMode} {memberName : Bool} {place : Place} {input : Text}
    {tokens : List Token} (lexes : Lexes mode memberName place input tokens) :
    lexFrom mode memberName place input = .ok tokens := by
  induction lexes with
  | done => rw [lexFrom, if_pos rfl]
  | step nonempty next _ ih =>
      rw [lexFrom, if_neg nonempty]
      simp only [next, ih, Except.map]

theorem lexFrom_eq_ok_iff {mode : LexMode} {memberName : Bool} {place : Place} {input : Text}
    {tokens : List Token} :
    lexFrom mode memberName place input = .ok tokens ↔
      Lexes mode memberName place input tokens :=
  ⟨Lexes.of_lexFrom, Lexes.lexFrom_eq⟩

theorem eq_ok_of_toOption {ε α : Type} {result : Except ε α} {value : α}
    (found : result.toOption = some value) : result = .ok value := by
  cases result with
  | error error => cases found
  | ok other =>
      cases found
      rfl

theorem tokenize_eq_ok_iff {source : Text} {tokens : List Token} :
    tokenize source = .ok tokens ↔
      lexFile source = .ok tokens ∧ nestingError? [] 0 tokens = none := by
  rw [tokenize]
  cases lexed : lexFile source with
  | error error => simp
  | ok found =>
      cases fault : nestingError? [] 0 found with
      | none =>
          simp only [fault, Except.ok.injEq]
          constructor
          · rintro rfl
            exact ⟨rfl, fault⟩
          · exact And.left
      | some error =>
          simp only [fault, reduceCtorEq, Except.ok.injEq, false_iff, not_and]
          rintro rfl
          simp [fault]

theorem Lexes.textOf_eq {mode : LexMode} {memberName : Bool} {place : Place} {input : Text}
    {tokens : List Token} (lexes : Lexes mode memberName place input tokens) :
    textOf tokens = input := by
  induction lexes with
  | done => rfl
  | step _ _ _ ih =>
      rw [textOf, List.flatMap_cons, ← textOf, ih]
      exact List.take_append_drop _ _

theorem Lexes.text_ne_nil {mode : LexMode} {memberName : Bool} {place : Place} {input : Text}
    {tokens : List Token} (lexes : Lexes mode memberName place input tokens) :
    ∀ token ∈ tokens, token.text ≠ [] := by
  induction lexes with
  | done => simp
  | @step _ _ _ input piece _ nonempty _ _ ih =>
      intro token member
      rcases List.mem_cons.mp member with rfl | later
      · have positive := piece.length_pos
        simpa [List.take_eq_nil_iff, Nat.pos_iff_ne_zero.mp positive] using nonempty
      · exact ih token later

theorem Lexes.line_eq {mode : LexMode} {memberName : Bool} {place : Place} {input : Text}
    {tokens before after : List Token} {token : Token}
    (lexes : Lexes mode memberName place input tokens)
    (split : tokens = before ++ token :: after) :
    token.line = place.line + (textOf before).count '\n' := by
  induction lexes generalizing before with
  | done => simp at split
  | @step _ _ place input piece _ _ _ _ ih =>
      cases before with
      | nil =>
          simp only [List.nil_append, List.cons.injEq] at split
          rw [← split.1]
          simp [textOf]
      | cons first before =>
          simp only [List.cons_append, List.cons.injEq] at split
          rw [ih split.2, ← split.1]
          simp only [textOf, List.flatMap_cons, List.count_append, Place.after]
          omega

/-- The question whether a member name comes next, behind some tokens. -/
def memberNameBehind (memberName : Bool) (tokens : List Token) : Bool :=
  tokens.foldl (fun memory token => memberNameAfter memory token.kind token.text) memberName

theorem memberNameBehind_of_trivia {memberName : Bool} {tokens : List Token}
    (trivia : ∀ token ∈ tokens, token.isTrivia = true) :
    memberNameBehind memberName tokens = memberName := by
  induction tokens with
  | nil => rfl
  | cons token rest ih =>
      have first : token.kind.isTrivia = true := trivia token (by simp)
      have later := ih fun other member => trivia other (by simp [member])
      rw [memberNameBehind, List.foldl_cons, memberNameAfter, if_pos first]
      exact later

/-- The tokens behind a cut are lexed from what is left of the text there. -/
theorem Lexes.drop {mode : LexMode} {memberName : Bool} {place : Place} {input : Text}
    {before after : List Token} (lexes : Lexes mode memberName place input (before ++ after)) :
    ∃ mode' place' input', Lexes mode' (memberNameBehind memberName before) place' input' after := by
  induction before generalizing mode memberName place input with
  | nil => exact ⟨mode, place, input, lexes⟩
  | cons token before ih =>
      cases lexes with
      | step _ _ later => exact ih later

theorem longestAmong_mem {input : Text} {rules : List LexicalRule} {found : LexicalMatch}
    (result : longestAmong input rules = some found) :
    ∃ rule ∈ rules, rule.lexeme = found.lexeme ∧ rule.pattern.matchLength input = found.length := by
  induction rules generalizing found with
  | nil => simp [longestAmong] at result
  | cons rule rules ih =>
      simp only [longestAmong] at result
      split at result
      next later laterResult =>
        split at result
        next shorter =>
          cases result
          obtain ⟨other, member, equal⟩ := ih laterResult
          exact ⟨other, by simp [member], equal⟩
        next =>
          cases result
          exact ⟨rule, by simp, rfl, rfl⟩
      next =>
        split at result
        next => contradiction
        next =>
          cases result
          exact ⟨rule, by simp, rfl, rfl⟩

/-- The kind that a rule gives to its tokens by itself, if it is not a name's. -/
def Lexeme.wholeKind? : Lexeme → Option TokenKind
  | .whole kind => some kind
  | _ => none

theorem wholeKind?_ne_keyword :
    ∀ rule ∈ lexicalRules, rule.lexeme.wholeKind? ≠ some .keyword := by
  decide

theorem openTagAt?_ne_keyword {input : Text} {tag : OpenTag} (found : openTagAt? input = some tag) :
    tag.kind ≠ .keyword := by
  unfold openTagAt? at found
  split at found
  · cases found
    simp
  · split at found
    · split at found <;> cases found <;> simp
    · contradiction
  · contradiction

theorem blockCommentKind_ne_keyword (text : Text) : blockCommentKind text ≠ .keyword := by
  unfold blockCommentKind
  split
  · split <;> simp
  · simp

theorem nameKind_member_ne_keyword (text : Text) : nameKind true text ≠ .keyword := by
  unfold nameKind
  split <;> simp

theorem Piece.ofCode_eq_ok {memberName : Bool} {input : Text} {piece : Piece}
    (next : Piece.ofCode memberName input = .ok piece) :
    ∃ found, ∃ result : longestMatch input = some found,
      Piece.ofMatch memberName input found (longestMatch_length_pos result) = .ok piece := by
  unfold Piece.ofCode at next
  split at next
  next found result => exact ⟨found, result, next⟩
  next => contradiction

/-- Where a member name stands, no word is a keyword. -/
theorem Piece.next_member_ne_keyword {mode : LexMode} {input : Text} {piece : Piece}
    (next : Piece.next mode true input = .ok piece) : piece.kind ≠ .keyword := by
  cases mode with
  | html =>
      cases next
      rw [Piece.ofHtml]
      split
      next tag found => exact openTagAt?_ne_keyword found
      next => simp
  | code =>
      obtain ⟨found, result, built⟩ := Piece.ofCode_eq_ok next
      obtain ⟨rule, member, lexeme, _⟩ := longestAmong_mem result
      have whole := wholeKind?_ne_keyword rule member
      rw [lexeme] at whole
      unfold Piece.ofMatch at built
      simp only at built
      split at built
      · rename_i kind equal
        cases built
        rw [equal] at whole
        simpa [Lexeme.wholeKind?] using whole
      · cases built
        exact nameKind_member_ne_keyword _
      · cases built
        simp
      · split at built <;> cases built <;> simp
      · split at built <;> cases built
        exact blockCommentKind_ne_keyword _
      · split at built <;> cases built
        simp
      · split at built <;> cases built
        simp

end ConstructorInjection

import Mathlib.Data.List.Basic
import Mathlib.Data.List.Induction
import Mathlib.Tactic.Common
import ConstructorInjection.Proofs.LongestTokens
import ConstructorInjection.Proofs.Partners
import ConstructorInjection.Proofs.TokenTexts

/-!
Which fault a file with unmatched delimiters is refused for. It is the first closer that the innermost
open delimiter does not ask for or, where all closers fit, the last delimiter that stays open.
-/

namespace ConstructorInjection

/-- The character that a delimiter is shown by. An attribute shows as the bracket that it opens. -/
def TokenKind.mark : TokenKind → Char
  | openBrace => '\x7b'
  | closeBrace => '\x7d'
  | openParen => '('
  | closeParen => ')'
  | openBracket | attributeStart => '['
  | closeBracket => ']'
  | _ => '\x00'

/-- The bytes of a token behind some others. -/
def spanBehind (before : List Token) (token : Token) : Span :=
  ⟨(textOf before).byteLength, (textOf before).byteLength + token.text.byteLength⟩

/-- The fault in the nesting of tokens that is reported for them. -/
inductive NestingFault (tokens : List Token) : LexError → Prop where
  | unexpectedCloser {before after : List Token} {closer : Token}
      (cut : tokens = before ++ closer :: after) (fit : ClosersFit before)
      (closes : closer.kind.isCloser = true)
      (noneOpen : ∀ outer opener, ¬ InnermostOpen before outer opener) :
      NestingFault tokens
        ⟨.unexpectedCloser closer.kind.mark, closer.line, spanBehind before closer⟩
  | mismatchedDelimiter {before outer after : List Token} {opener closer : Token}
      (cut : tokens = before ++ closer :: after) (fit : ClosersFit before)
      (closes : closer.kind.isCloser = true) (innermost : InnermostOpen before outer opener)
      (other : opener.kind.closing? ≠ some closer.kind) :
      NestingFault tokens
        ⟨.mismatchedDelimiter opener.kind.mark closer.kind.mark opener.line, closer.line,
          spanBehind before closer⟩
  | unclosedDelimiter {outer : List Token} {opener : Token} (fit : ClosersFit tokens)
      (innermost : InnermostOpen tokens outer opener) :
      NestingFault tokens
        ⟨.unclosedDelimiter opener.kind.mark, opener.line,
          ⟨(textOf outer).byteLength, (textOf outer).byteLength + 1⟩⟩

section Marks

theorem pattern_of_delimiter : ∀ rule ∈ lexicalRules, ∀ kind,
    rule.lexeme.wholeKind? = some kind → kind.isOpener = true ∨ kind.isCloser = true →
      rule.pattern = .spelling [kind.mark] := by
  have checked : lexicalRules.all (fun rule => rule.lexeme.wholeKind?.all fun kind =>
      !(kind.isOpener || kind.isCloser) || rule.pattern == .spelling [kind.mark]) = true := by
    decide
  intro rule member kind isWhole delimits
  have accepted := List.all_eq_true.mp checked rule member
  rw [isWhole, Option.all_some, Bool.or_eq_true, Bool.not_eq_true', Bool.or_eq_false_iff,
    beq_iff_eq] at accepted
  rcases accepted with ⟨noOpener, noCloser⟩ | spelled
  · rw [noOpener, noCloser] at delimits
    simp at delimits
  · exact spelled

theorem Piece.ofHtml_noDelimiter (input : Text) :
    ¬ ((Piece.ofHtml input).kind.isOpener = true ∨ (Piece.ofHtml input).kind.isCloser = true) := by
  apply TokenKind.delimits_eq_false
  rcases Piece.ofHtml_cases input with ⟨tag, found, isTag, _⟩ | ⟨_, isHtml, _⟩
  · rw [isTag]
    rcases (openTagAt?_ends found).2.1 with opens | echoes
    · exact .inr (.inr (.inl opens))
    · exact .inr (.inr (.inr (.inl echoes)))
  · exact .inr (.inl isHtml)

theorem nameKind_noDelimiter (memberName : Bool) (name : Text) :
    ¬ ((nameKind memberName name).isOpener = true ∨ (nameKind memberName name).isCloser = true) := by
  rcases nameKind_isName memberName name with named | isKeyword
  · revert named
    cases nameKind memberName name <;> decide
  · rw [isKeyword]
    decide

/-- A delimiter other than an attribute is the whole of what its rule matches. -/
theorem Piece.ofMatch_of_delimiter {memberName : Bool} {input : Text} {found : LexicalMatch}
    {positive : 0 < found.length} {piece : Piece}
    (built : Piece.ofMatch memberName input found positive = .ok piece)
    (delimits : piece.kind.isOpener = true ∨ piece.kind.isCloser = true)
    (noAttribute : piece.kind ≠ .attributeStart) :
    found.lexeme.wholeKind? = some piece.kind ∧ found.length = piece.length := by
  unfold Piece.ofMatch at built
  extract_lets rest at built
  split at built
  next kind isWhole =>
    cases built
    exact ⟨by rw [isWhole]; rfl, rfl⟩
  next isName =>
    cases built
    exact absurd delimits (nameKind_noDelimiter _ _)
  next =>
    cases built
    exact absurd delimits (TokenKind.delimits_eq_false (.inl rfl))
  next =>
    split at built <;> cases built
    · contradiction
    · exact absurd delimits (TokenKind.delimits_eq_false (.inl rfl))
  next =>
    split at built <;> cases built
    exact absurd delimits (TokenKind.delimits_eq_false (.inl (isTrivia_blockCommentKind _)))
  next =>
    split at built <;> cases built
    exact absurd delimits (TokenKind.delimits_eq_false (by simp))
  next =>
    split at built <;> cases built
    exact absurd delimits (TokenKind.delimits_eq_false (by simp))

theorem Piece.take_of_delimiter {mode : LexMode} {memberName : Bool} {input : Text} {piece : Piece}
    (next : Piece.next mode memberName input = .ok piece)
    (delimits : piece.kind.isOpener = true ∨ piece.kind.isCloser = true)
    (noAttribute : piece.kind ≠ .attributeStart) : input.take piece.length = [piece.kind.mark] := by
  cases mode with
  | html =>
      cases next
      exact absurd delimits (Piece.ofHtml_noDelimiter input)
  | code =>
      obtain ⟨found, result, built⟩ := Piece.ofCode_eq_ok next
      obtain ⟨rule, member, lexeme, length⟩ := longestAmong_mem result
      obtain ⟨isWhole, sameLength⟩ := Piece.ofMatch_of_delimiter built delimits noAttribute
      rw [pattern_of_delimiter rule member piece.kind (by rw [lexeme, isWhole]) delimits,
        Pattern.matchLength] at length
      split at length
      next isPrefix =>
        obtain ⟨more, rfl⟩ := List.isPrefixOf_iff_prefix.mp isPrefix
        rw [← sameLength, ← length]
        exact List.take_left
      next =>
        have positive := longestMatch_length_pos result
        omega

/-- Delimiters that are spelled by their marks, but for attributes, which show as brackets. -/
def Marked (tokens : List Token) : Prop :=
  ∀ token ∈ tokens, (token.kind.isOpener = true ∨ token.kind.isCloser = true) →
    token.kind ≠ .attributeStart → token.text = [token.kind.mark]

theorem Lexes.marked {mode : LexMode} {memberName : Bool} {place : Place} {input : Text}
    {tokens : List Token} (lexes : Lexes mode memberName place input tokens) : Marked tokens := by
  induction lexes with
  | done => simp [Marked]
  | step nonempty next _ ih =>
      intro token member delimits noAttribute
      rcases List.mem_cons.mp member with rfl | later
      · exact Piece.take_of_delimiter next delimits noAttribute
      · exact ih token later delimits noAttribute

namespace Marked

variable {tokens : List Token} {token : Token}

theorem character_ofToken (marked : Marked tokens) (member : token ∈ tokens)
    (opens : token.kind.isOpener = true) (offset : Nat) :
    (OpenDelimiter.ofToken token offset).character = token.kind.mark := by
  rw [OpenDelimiter.ofToken]
  split
  next isAttribute => rw [isAttribute, TokenKind.mark]
  next noAttribute =>
    rw [marked token member (.inl opens) noAttribute]
    rfl

theorem headD_closer (marked : Marked tokens) (member : token ∈ tokens)
    (closes : token.kind.isCloser = true) : token.text.headD '\x00' = token.kind.mark := by
  have noAttribute : token.kind ≠ .attributeStart := by
    intro isAttribute
    rw [isAttribute] at closes
    contradiction
  rw [marked token member (.inr closes) noAttribute]
  rfl

end Marked

end Marks

section Check

/-- The stack of the check for the delimiters that are open. -/
def openDelimiters (opened : List (List Token × Token)) : List OpenDelimiter :=
  opened.map fun (outer, opener) => OpenDelimiter.ofToken opener (textOf outer).byteLength

theorem nestingError?_opener {token : Token} (opens : token.kind.isOpener = true)
    (opened : List OpenDelimiter) (offset : Nat) (rest : List Token) :
    nestingError? opened offset (token :: rest) =
      nestingError? (OpenDelimiter.ofToken token offset :: opened)
        (offset + token.text.byteLength) rest := by
  rw [nestingError?, if_pos opens]

theorem nestingError?_closer {token : Token} (closes : token.kind.isCloser = true)
    (innermost : OpenDelimiter) (outer : List OpenDelimiter) (offset : Nat) (rest : List Token) :
    nestingError? (innermost :: outer) offset (token :: rest) =
      if innermost.kind.closing? = some token.kind then
        nestingError? outer (offset + token.text.byteLength) rest
      else
        some ⟨.mismatchedDelimiter innermost.character (token.text.headD '\x00') innermost.line,
          token.line, ⟨offset, offset + token.text.byteLength⟩⟩ := by
  rw [nestingError?, TokenKind.isOpener_of_isCloser closes, closes]
  rfl

theorem nestingError?_unopened {token : Token} (closes : token.kind.isCloser = true)
    (offset : Nat) (rest : List Token) :
    nestingError? [] offset (token :: rest) =
      some ⟨.unexpectedCloser (token.text.headD '\x00'), token.line,
        ⟨offset, offset + token.text.byteLength⟩⟩ := by
  rw [nestingError?, TokenKind.isOpener_of_isCloser closes, closes]
  rfl

/-- The check passes over nested tokens. -/
theorem nestingError?_nested {tokens : List Token} (nested : Nested tokens)
    (opened : List OpenDelimiter) (offset : Nat) (rest : List Token) :
    nestingError? opened offset (tokens ++ rest) =
      nestingError? opened (offset + (textOf tokens).byteLength) rest := by
  induction nested generalizing opened offset rest with
  | nil => rfl
  | @plain token tokens noOpener noCloser _ ih =>
      rw [List.cons_append, nestingError?, noOpener, noCloser, textOf_cons,
        Text.byteLength_append, ← Nat.add_assoc]
      exact ih opened _ rest
  | @pair opener closer inner behind partners _ _ innerIh behindIh =>
      have opens := TokenKind.isOpener_of_closing? partners
      have closes := TokenKind.isCloser_of_closing? partners
      rw [List.append_assoc, List.cons_append, nestingError?_opener opens, innerIh,
        List.cons_append, nestingError?_closer closes, OpenDelimiter.ofToken, if_pos partners,
        behindIh]
      simp only [textOf_append, textOf_cons, Text.byteLength_append, Nat.add_assoc]

/-- Behind tokens whose closers fit, the check goes on with the delimiters that are open there. -/
theorem nestingError?_opened {opened : List (List Token × Token)} {tokens : List Token}
    (stack : Opened opened tokens) (rest : List Token) :
    nestingError? [] 0 (tokens ++ rest) =
      nestingError? (openDelimiters opened) (textOf tokens).byteLength rest := by
  induction opened generalizing tokens rest with
  | nil =>
      rw [nestingError?_nested stack, Nat.zero_add]
      rfl
  | cons first opened ih =>
      obtain ⟨⟨opens, inner, rfl, nested⟩, others⟩ := stack
      rw [List.append_assoc, ih others, List.cons_append, nestingError?_opener opens,
        nestingError?_nested nested]
      simp only [openDelimiters, List.map_cons, textOf_append, textOf_cons, Text.byteLength_append,
        Nat.add_assoc]

variable {tokens : List Token} {error : LexError}

theorem NestingFault.nestingError?_eq (fault : NestingFault tokens error) (marked : Marked tokens) :
    nestingError? [] 0 tokens = some error := by
  cases fault with
  | @unexpectedCloser before after closer cut fit closes noneOpen =>
      obtain ⟨opened, stack⟩ := fit.exists_opened
      cases opened with
      | cons first others => exact absurd stack.1 (noneOpen first.1 first.2)
      | nil =>
          have shown := marked.headD_closer (by simp [cut]) closes
          rw [cut, nestingError?_opened stack, openDelimiters, List.map_nil,
            nestingError?_unopened closes, shown, spanBehind]
  | @mismatchedDelimiter before outer after opener closer cut fit closes innermost other =>
      obtain ⟨others, stack⟩ := fit.exists_opened_innermost innermost
      obtain ⟨opens, inner, whole, _⟩ := innermost
      have shown := marked.headD_closer (by simp [cut]) closes
      have openerShown := marked.character_ofToken (by simp [cut, whole]) opens
        (textOf outer).byteLength
      rw [cut, nestingError?_opened stack, openDelimiters, List.map_cons,
        nestingError?_closer closes, openerShown, shown, spanBehind]
      exact if_neg other
  | @unclosedDelimiter outer opener fit innermost =>
      obtain ⟨others, stack⟩ := fit.exists_opened_innermost innermost
      obtain ⟨opens, inner, whole, _⟩ := innermost
      have shown := marked.character_ofToken (by simp [whole]) opens (textOf outer).byteLength
      rw [← shown, ← List.append_nil tokens, nestingError?_opened stack]
      rfl

/-- Up to the first closer that is not awaited, all closers fit. -/
theorem exists_unfit_closer (unfit : ¬ ClosersFit tokens) :
    ∃ before closer after, tokens = before ++ closer :: after ∧ ClosersFit before ∧
      closer.kind.isCloser = true ∧ ¬ Awaits before closer := by
  induction tokens using List.reverseRecOn with
  | nil => exact absurd Nested.nil.closersFit unfit
  | append_singleton tokens token ih =>
      by_cases fit : ClosersFit tokens
      · refine ⟨tokens, token, [], rfl, fit, ?_⟩
        by_contra fits
        apply unfit
        intro before closer after cut closes
        rcases List.eq_nil_or_concat after with rfl | ⟨others, last, rfl⟩
        · obtain ⟨rfl, same⟩ := List.append_inj' cut rfl
          cases same
          by_contra unawaited
          exact fits ⟨closes, unawaited⟩
        · rw [List.concat_eq_append, ← List.cons_append, ← List.append_assoc] at cut
          exact fit before closer others (List.append_inj' cut rfl).1 closes
      · obtain ⟨before, closer, after, rfl, found⟩ := ih fit
        exact ⟨before, closer, after ++ [token], by simp, found⟩

theorem exists_nestingFault (unmatched : ¬ Nested tokens) : ∃ error, NestingFault tokens error := by
  by_cases fit : ClosersFit tokens
  · rcases fit.nested_or_innermost with nested | ⟨outer, opener, innermost⟩
    · contradiction
    · exact ⟨_, .unclosedDelimiter fit innermost⟩
  · obtain ⟨before, closer, after, cut, fitBefore, closes, unawaited⟩ := exists_unfit_closer fit
    rcases fitBefore.nested_or_innermost with nested | ⟨outer, opener, innermost⟩
    · refine ⟨_, .unexpectedCloser cut fitBefore closes ?_⟩
      intro outer opener innermost
      exact innermost.not_nested nested
    · refine ⟨_, .mismatchedDelimiter cut fitBefore closes innermost ?_⟩
      intro partners
      exact unawaited ⟨outer, opener, innermost, partners⟩

theorem nestingError?_eq_some_iff (marked : Marked tokens) :
    nestingError? [] 0 tokens = some error ↔ NestingFault tokens error := by
  constructor
  · intro failed
    have unmatched : ¬ Nested tokens := by
      rw [← @nestingError?_eq_none_iff 0, failed]
      simp
    obtain ⟨reported, fault⟩ := exists_nestingFault unmatched
    rw [fault.nestingError?_eq marked] at failed
    cases failed
    exact fault
  · intro fault
    exact fault.nestingError?_eq marked

end Check

/-- The tokens of a source are accepted if they are nested. Otherwise the source is refused for the
first closer that does not fit, or for the last delimiter left open where all of them do. -/
theorem tokenize_nesting {source : Text} {tokens : List Token}
    (lexed : lexFile source = .ok tokens) :
    textOf tokens = source ∧
      (∀ stream, tokenize source = .ok stream ↔ stream = tokens ∧ Nested tokens) ∧
      ∀ error, tokenize source = .error error ↔ NestingFault tokens error := by
  have lexes := Lexes.of_lexFrom lexed
  refine ⟨lexes.textOf_eq, ?_, ?_⟩
  · intro stream
    rw [tokenize_eq_ok_iff, lexed, Except.ok.injEq, nestingError?_eq_none_iff]
    constructor
    · rintro ⟨rfl, nested⟩
      exact ⟨rfl, nested⟩
    · rintro ⟨rfl, nested⟩
      exact ⟨rfl, nested⟩
  · intro error
    rw [← nestingError?_eq_some_iff lexes.marked, tokenize, lexed]
    simp only
    cases nestingError? [] 0 tokens with
    | none => simp
    | some fault => simp

/-- An attribute, behind a character of two bytes, in which a parenthesis closes. -/
def parenthesisInAttribute : Text :=
  "<?php /* é */\nf(#[A)]);"

theorem tokenize_nesting_parenthesisInAttribute : ∃ tokens,
    lexFile parenthesisInAttribute = .ok tokens ∧ textOf tokens = parenthesisInAttribute ∧
      ¬ Nested tokens ∧ NestingFault tokens ⟨.mismatchedDelimiter '[' ')' 2, 2, ⟨20, 21⟩⟩ := by
  have computed : (lexFile parenthesisInAttribute).toOption.any (fun tokens =>
      nestingError? [] 0 tokens == some ⟨.mismatchedDelimiter '[' ')' 2, 2, ⟨20, 21⟩⟩) = true := by
    decide +kernel
  simp only [Option.any_eq_true, beq_iff_eq] at computed
  obtain ⟨tokens, found, failed⟩ := computed
  have lexed := eq_ok_of_toOption found
  obtain ⟨whole, accepted, refused⟩ := tokenize_nesting lexed
  have refusal : tokenize parenthesisInAttribute =
      .error ⟨.mismatchedDelimiter '[' ')' 2, 2, ⟨20, 21⟩⟩ := by
    rw [tokenize, lexed]
    simp only [failed]
  refine ⟨tokens, lexed, whole, ?_, (refused _).mp refusal⟩
  intro nested
  have passes := (accepted tokens).mpr ⟨rfl, nested⟩
  rw [refusal] at passes
  contradiction

end ConstructorInjection

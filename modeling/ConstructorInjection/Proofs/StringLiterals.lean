import Mathlib.Data.List.Basic
import Mathlib.Tactic.Common
import ConstructorInjection.LegacyCall
import ConstructorInjection.Proofs.CodeTokens
import ConstructorInjection.Proofs.Lossless
import ConstructorInjection.Proofs.TokenTexts

/-!
String literals. What stands between the quotes holds no quote that is not escaped, so the value of
a constant string, which two replacements one after the other compute, is what one reading from left
to right makes of it.
-/

namespace ConstructorInjection

/-- The texts that can stand between two quotes: a backslash has a character behind it that it
escapes, and every quote is escaped. -/
inductive Enclosed (quote : Char) : Text → Prop where
  | nil : Enclosed quote []
  | plain {first : Char} {rest : Text} (noEscape : first ≠ '\\') (noQuote : first ≠ quote)
      (later : Enclosed quote rest) : Enclosed quote (first :: rest)
  | escaped {first : Char} {rest : Text} (later : Enclosed quote rest) :
      Enclosed quote ('\\' :: first :: rest)

theorem exists_enclosed {quote : Char} {text : Text} {extent : Nat}
    (result : quotedExtent quote text = some extent) :
    ∃ inner rest, text = inner ++ quote :: rest ∧ extent = inner.length + 1 ∧
      Enclosed quote inner := by
  fun_induction quotedExtent quote text generalizing extent with
  | case1 | case2 => contradiction
  | case3 escaped text ih =>
      obtain ⟨_, found, rfl⟩ := Option.map_eq_some_iff.mp result
      obtain ⟨inner, rest, rfl, rfl, enclosed⟩ := ih found
      exact ⟨'\\' :: escaped :: inner, rest, rfl, rfl, .escaped enclosed⟩
  | case4 text noEscape noLast =>
      cases result
      exact ⟨[], text, rfl, rfl, .nil⟩
  | case5 first text noLast noEscape noQuote ih =>
      obtain ⟨_, found, rfl⟩ := Option.map_eq_some_iff.mp result
      obtain ⟨inner, rest, rfl, rfl, enclosed⟩ := ih found
      refine ⟨first :: inner, rest, rfl, rfl, .plain ?_ noQuote enclosed⟩
      rintro rfl
      obtain ⟨other, others, cut⟩ := List.exists_cons_of_ne_nil
        (List.append_ne_nil_of_right_ne_nil inner (List.cons_ne_nil quote rest))
      exact noEscape other others rfl cut

/-- The characters that a string can stand between. -/
def quotes : List Char :=
  ['\'', '"', '\x60']

theorem LexicalRule.eq_of_stringLiteral :
    ∀ rule ∈ lexicalRules, rule.lexeme.gives .stringLiteral = true →
      ∃ quote, quote ∈ quotes ∧ rule = ⟨.spelling [quote], .quoted quote⟩ := by
  have checked : lexicalRules.all (fun rule => !rule.lexeme.gives .stringLiteral ||
      quotes.any fun quote => rule == ⟨.spelling [quote], .quoted quote⟩) = true := by
    decide
  intro rule member isString
  have accepted := List.all_eq_true.mp checked rule member
  simpa only [isString, Bool.not_true, Bool.false_or, List.any_eq_true, beq_iff_eq] using accepted

/-- A string literal goes up to the first quote like its own that is not escaped. -/
theorem Piece.exists_quote {mode : LexMode} {memberName : Bool} {input : Text} {piece : Piece}
    (next : Piece.next mode memberName input = .ok piece) (isString : piece.kind = .stringLiteral) :
    mode = .code ∧ ∃ quote rest extent, quote ∈ quotes ∧ input = quote :: rest ∧
      quotedExtent quote rest = some extent ∧ piece.length = extent + 1 := by
  have inCode : piece.kind.isMarkup = false := by
    rw [isString]
    rfl
  obtain rfl := Piece.mode_of_isMarkup next inCode
  obtain ⟨rule, member, gives, matched, extent, match_eq, positive, scanned, length, -⟩ :=
    Piece.exists_rule next
  rw [isString] at gives
  obtain ⟨quote, isQuote, rfl⟩ := LexicalRule.eq_of_stringLiteral rule member gives
  obtain ⟨⟨rest, rfl⟩, size⟩ := Pattern.prefix_of_matchLength rfl
    (match_eq ▸ Nat.pos_iff_ne_zero.mp positive)
  obtain rfl : matched = 1 := match_eq.symm.trans size
  refine ⟨rfl, quote, rest, extent, isQuote, rfl, ?_, length.trans (Nat.add_comm 1 extent)⟩
  change (quotedExtent quote rest).elim _ _ = _ at scanned
  cases found : quotedExtent quote rest with
  | none => simp [found] at scanned
  | some other =>
      simp only [found, Option.elim_some, Except.ok.injEq] at scanned
      rw [scanned]

/-- A string literal that stands in quotes. -/
structure Token.IsQuoted (token : Token) (quote : Char) (inner : Text) : Prop where
  isQuote : quote ∈ quotes
  spelled : token.text = quote :: (inner ++ [quote])
  enclosed : Enclosed quote inner

theorem Lexes.exists_isQuoted {mode : LexMode} {memberName : Bool} {place : Place} {input : Text}
    {tokens : List Token} (lexes : Lexes mode memberName place input tokens) :
    ∀ token ∈ tokens, token.kind = .stringLiteral → ∃ quote inner, token.IsQuoted quote inner := by
  induction lexes with
  | done => simp
  | @step mode memberName place input piece rest _ next _ ih =>
      rw [List.forall_mem_cons]
      refine ⟨fun isString => ?_, ih⟩
      obtain ⟨-, quote, rest, extent, isQuote, rfl, closed, length⟩ :=
        Piece.exists_quote next isString
      obtain ⟨inner, behind, rfl, rfl, enclosed⟩ := exists_enclosed closed
      refine ⟨quote, inner, isQuote, ?_, enclosed⟩
      simp [length, List.take_append]

/-! The value of a constant string. -/

/-- Reading from left to right, a backslash makes way for a backslash or a quote behind it, and
everything else stays as it is. -/
def decoded (quote : Char) : Text → Text
  | '\\' :: second :: rest =>
    if second = '\\' ∨ second = quote then second :: decoded quote rest
    else '\\' :: decoded quote (second :: rest)
  | first :: rest => first :: decoded quote rest
  | [] => []

theorem decoded_cons {quote first : Char} (noEscape : first ≠ '\\') (rest : Text) :
    decoded quote (first :: rest) = first :: decoded quote rest := by
  rw [decoded]
  rintro _ _ rfl
  contradiction

namespace Text

variable {first second other : Char} {replacement rest : Text}

theorem replaceAll_of_ne (different : other ≠ first) :
    replaceAll [first, second] replacement (other :: rest) =
      other :: replaceAll [first, second] replacement rest := by
  rw [replaceAll, if_neg]
  simp [List.isPrefixOf, Ne.symm different]

theorem replaceAll_of_head?_ne (different : rest.head? ≠ some second) :
    replaceAll [first, second] replacement (other :: rest) =
      other :: replaceAll [first, second] replacement rest := by
  rw [replaceAll, if_neg]
  cases rest with
  | nil => simp [List.isPrefixOf]
  | cons next rest =>
      have apart : second ≠ next := fun same => different (congrArg some same.symm)
      simp [List.isPrefixOf, apart]

theorem replaceAll_pair :
    replaceAll [first, second] replacement (first :: second :: rest) =
      replacement ++ replaceAll [first, second] replacement rest := by
  rw [replaceAll, if_pos]
  · rfl
  · simp [List.isPrefixOf]

end Text

namespace Enclosed

variable {quote : Char} {text : Text}

theorem head?_ne (enclosed : Enclosed quote text) (noBackslash : quote ≠ '\\') :
    text.head? ≠ some quote := by
  cases enclosed with
  | nil => simp
  | plain noEscape noQuote later => simpa using noQuote
  | escaped later => simpa using noBackslash.symm

/-- Replacing the escaped quotes first leaves the pairs of backslashes as they are. -/
theorem unescape_eq (enclosed : Enclosed quote text) (noBackslash : quote ≠ '\\') :
    TokenStream.unescape quote text = decoded quote text := by
  rw [TokenStream.unescape]
  induction enclosed with
  | nil => rw [Text.replaceAll, Text.replaceAll, decoded]
  | @plain first rest noEscape noQuote later ih =>
      rw [Text.replaceAll_of_ne noEscape, Text.replaceAll_of_ne noEscape, decoded_cons noEscape, ih]
  | @escaped first rest later ih =>
      by_cases isQuote : first = quote
      · subst isQuote
        rw [Text.replaceAll_pair, List.singleton_append, Text.replaceAll_of_ne noBackslash, ih,
          decoded, if_pos (.inr rfl)]
      · have kept : Text.replaceAll ['\\', quote] [quote] ('\\' :: first :: rest) =
            '\\' :: first :: Text.replaceAll ['\\', quote] [quote] rest := by
          rw [Text.replaceAll_of_head?_ne (by simpa using isQuote)]
          by_cases isBackslash : first = '\\'
          · rw [Text.replaceAll_of_head?_ne (later.head?_ne noBackslash)]
          · rw [Text.replaceAll_of_ne isBackslash]
        rw [kept, decoded]
        by_cases isBackslash : first = '\\'
        · subst isBackslash
          rw [Text.replaceAll_pair, List.singleton_append, ih, if_pos (.inl rfl)]
        · rw [Text.replaceAll_of_head?_ne (by simpa using isBackslash),
            Text.replaceAll_of_ne isBackslash, ih, if_neg (by simp [isBackslash, isQuote]),
            decoded_cons isBackslash]

end Enclosed

theorem unquote?_of_quoted (quote : Char) (inner : Text) :
    TokenStream.unquote? quote (quote :: (inner ++ [quote])) = some inner := by
  have starts : Text.dropStart? [quote] (quote :: (inner ++ [quote])) = some (inner ++ [quote]) := by
    simp [Text.dropStart?, List.isPrefixOf]
  rw [TokenStream.unquote?, starts, Option.bind_some, Text.dropFinish?,
    if_pos (List.isSuffixOf_iff_suffix.mpr (List.suffix_append inner [quote]))]
  simp

theorem unquote?_of_ne {quote other : Char} (different : other ≠ quote) (rest : Text) :
    TokenStream.unquote? quote (other :: rest) = none := by
  simp [TokenStream.unquote?, Text.dropStart?, List.isPrefixOf, different.symm]

/-- Single quotes always hold a constant, double quotes without a dollar sign do. -/
theorem constantText?_eq_some_iff {quote : Char} {inner value : Text} (isQuote : quote ∈ quotes)
    (enclosed : Enclosed quote inner) :
    TokenStream.constantText? (quote :: (inner ++ [quote])) = some value ↔
      (quote = '\'' ∨ quote = '"' ∧ '$' ∉ inner) ∧ value = decoded quote inner := by
  have noBackslash : quote ≠ '\\' := by
    rintro rfl
    exact absurd isQuote (by decide)
  rw [← enclosed.unescape_eq noBackslash, TokenStream.constantText?]
  by_cases single : quote = '\''
  · subst single
    simp [unquote?_of_quoted, eq_comm]
  · rw [unquote?_of_ne single]
    by_cases double : quote = '"'
    · subst double
      rw [unquote?_of_quoted]
      by_cases dollar : '$' ∈ inner <;> simp [dollar, eq_comm]
    · rw [unquote?_of_ne double]
      simp [single, double]

/-- The value of a string literal, where it is a constant, is what one reading from left to right
makes of the text between its quotes. -/
theorem TokenStream.constantArgument?_decoded {source : Text} {stream : TokenStream}
    (lexed : tokenize source = .ok stream ∨ lexFragment source = .ok stream) {index : Nat}
    {token : Token} (found : stream[index]? = some token) (isString : token.kind = .stringLiteral) :
    ∃ quote inner, quote ∈ quotes ∧ token.text = quote :: (inner ++ [quote]) ∧
      ∀ value, stream.constantArgument? ⟨index, index + 1⟩ = some value ↔
        (quote = '\'' ∨ quote = '"' ∧ '$' ∉ inner) ∧ value = decoded quote inner := by
  obtain ⟨mode, lexes⟩ := exists_lexes_of_lexed lexed
  obtain ⟨quote, inner, isQuote, spelled, enclosed⟩ :=
    lexes.exists_isQuoted token (List.mem_of_getElem? found) isString
  refine ⟨quote, inner, isQuote, spelled, fun value => ?_⟩
  have single : (⟨index, index + 1⟩ : IndexRange).length = 1 := Nat.add_sub_cancel_left index 1
  rw [constantArgument?, if_pos single, found, Option.filter_some, if_pos (beq_iff_eq.mpr isString),
    Option.bind_some, spelled]
  exact constantText?_eq_some_iff isQuote enclosed

/-- An alias with a backslash of each sort: before a backslash, before the quote and before neither. -/
def escapedAlias : Text :=
  "<?php Mage::helper('a\\\\\\'b\\c');"

theorem TokenStream.constantArgument?_decoded_escapedAlias : ∃ stream : TokenStream,
    tokenize escapedAlias = .ok stream ∧ stream[5]? = some ⟨.stringLiteral, "'a\\\\\\'b\\c'", 1⟩ ∧
      stream.constantArgument? ⟨5, 6⟩ = some "a\\'b\\c" := by
  have computed : (tokenize escapedAlias).toOption.any (fun stream : TokenStream =>
      stream[5]? == some ⟨.stringLiteral, "'a\\\\\\'b\\c'", 1⟩) = true := by
    decide +kernel
  simp only [Option.any_eq_true, beq_iff_eq] at computed
  obtain ⟨stream, lexed, found⟩ := computed
  have tokenized := eq_ok_of_toOption lexed
  obtain ⟨quote, inner, -, spelled, value_iff⟩ :=
    constantArgument?_decoded (.inl tokenized) found rfl
  obtain ⟨rfl, behind⟩ := List.cons.inj spelled
  have cut : "a\\\\\\'b\\c".toList ++ ['\''] = inner ++ ['\''] := behind
  obtain rfl := List.append_cancel_right cut
  exact ⟨stream, tokenized, found, (value_iff _).mpr ⟨.inl rfl, by decide⟩⟩

end ConstructorInjection

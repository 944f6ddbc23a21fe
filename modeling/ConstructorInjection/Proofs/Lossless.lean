import Mathlib.Algebra.Group.Nat.Defs
import ConstructorInjection.Proofs.Lexing

/-!
Lexing loses nothing: the tokens of a text are the text, byte for byte, and every token knows the
line on which it starts.
-/

namespace ConstructorInjection

namespace Text

/-- The bytes of a text in a file. -/
def utf8 (text : Text) : List UInt8 :=
  text.flatMap String.utf8EncodeChar

theorem utf8_append (left right : Text) : utf8 (left ++ right) = utf8 left ++ utf8 right := by
  simp [utf8]

theorem length_utf8 (text : Text) : (utf8 text).length = (String.ofList text).utf8ByteSize := by
  change (text.flatMap String.utf8EncodeChar).length =
    (text.flatMap String.utf8EncodeChar).toByteArray.size
  rw [List.size_toByteArray]

theorem newline_notMem_continuation (code : Nat) (low : 0x80 ≤ code) (high : code < 0x100) :
    (10 : UInt8) ≠ UInt8.ofNat code := by
  intro equal
  have values := congrArg UInt8.toNat equal
  simp only [UInt8.toNat_ofNat', Nat.mod_eq_of_lt high] at values
  change 10 = code at values
  omega

/-- Only a line feed has the byte of a line feed in its encoding. -/
theorem count_newline_utf8EncodeChar (character : Char) :
    (String.utf8EncodeChar character).count 10 = if character = '\n' then 1 else 0 := by
  have isNewline : character = '\n' ↔ character.val.toNat = 10 := by
    rw [Char.ext_iff, ← UInt32.toNat_inj]
    rfl
  by_cases single : character.val.toNat ≤ 0x7f
  · have encoded : String.utf8EncodeChar character = [UInt8.ofNat character.val.toNat] := by
      rw [String.utf8EncodeChar, if_pos single]
    have sameByte : UInt8.ofNat character.val.toNat = 10 ↔ character.val.toNat = 10 := by
      rw [← UInt8.toNat_inj, UInt8.toNat_ofNat', Nat.mod_eq_of_lt (by omega)]
      rfl
    rw [encoded, List.count_singleton]
    simp only [beq_iff_eq, sameByte, isNewline]
  · have different : character ≠ '\n' := by
      rw [ne_eq, isNewline]
      omega
    rw [if_neg different, List.count_eq_zero, String.utf8EncodeChar]
    simp only [single, ↓reduceIte]
    split
    · simp only [List.mem_cons, List.not_mem_nil, or_false, not_or]
      refine ⟨newline_notMem_continuation _ ?_ ?_, newline_notMem_continuation _ ?_ ?_⟩ <;> omega
    · split
      · simp only [List.mem_cons, List.not_mem_nil, or_false, not_or]
        refine ⟨newline_notMem_continuation _ ?_ ?_, newline_notMem_continuation _ ?_ ?_,
          newline_notMem_continuation _ ?_ ?_⟩ <;> omega
      · simp only [List.mem_cons, List.not_mem_nil, or_false, not_or]
        refine ⟨newline_notMem_continuation _ ?_ ?_, newline_notMem_continuation _ ?_ ?_,
          newline_notMem_continuation _ ?_ ?_, newline_notMem_continuation _ ?_ ?_⟩ <;> omega

theorem count_newline_utf8 (text : Text) : (utf8 text).count 10 = text.count '\n' := by
  induction text with
  | nil => rfl
  | cons first rest ih =>
      rw [utf8, List.flatMap_cons, List.count_append, ← utf8, ih, count_newline_utf8EncodeChar,
        List.count_cons]
      simp only [beq_iff_eq]
      omega

/-- The bytes of a prefix end on a boundary between characters. -/
theorem isValid_utf8_append (start rest : Text) :
    (⟨(utf8 start).length⟩ : String.Pos.Raw).IsValid (String.ofList (start ++ rest)) := by
  rw [String.Pos.Raw.isValid_ofList]
  refine ⟨start.length, ?_⟩
  rw [List.take_left, length_utf8]

end Text

theorem textOf_append (left right : List Token) :
    textOf (left ++ right) = textOf left ++ textOf right := by
  simp [textOf]

theorem textOf_cons (token : Token) (rest : List Token) :
    textOf (token :: rest) = token.text ++ textOf rest := by
  simp [textOf]

theorem exists_lexes_of_lexed {source : Text} {tokens : List Token}
    (lexed : tokenize source = .ok tokens ∨ lexFragment source = .ok tokens) :
    ∃ mode, Lexes mode false Place.start source tokens := by
  rcases lexed with whole | fragment
  · exact ⟨.html, Lexes.of_lexFrom (tokenize_eq_ok_iff.mp whole).1⟩
  · exact ⟨.code, Lexes.of_lexFrom fragment⟩

/-- The texts of the tokens, one after the other, are the source byte for byte. No token is empty,
every token starts and ends between two characters, and its line is one more than the number of line
feeds in front of it, which fits into 32 bits. -/
theorem lexing_lossless (source : Text) (tokens : List Token)
    (short : (Text.utf8 source).length < 2 ^ 31)
    (lexed : tokenize source = .ok tokens ∨ lexFragment source = .ok tokens) :
    tokens.flatMap (fun token => Text.utf8 token.text) = Text.utf8 source ∧
      ∀ before token after, tokens = before ++ token :: after →
        let start := (Text.utf8 (textOf before)).length
        let stop := start + (Text.utf8 token.text).length
        token.text ≠ [] ∧
          (⟨start⟩ : String.Pos.Raw).IsValid (String.ofList source) ∧
          (⟨stop⟩ : String.Pos.Raw).IsValid (String.ofList source) ∧
          ((Text.utf8 source).drop start).take (Text.utf8 token.text).length =
            Text.utf8 token.text ∧
          token.line = 1 + ((Text.utf8 source).take start).count 10 ∧ token.line < 2 ^ 32 := by
  obtain ⟨mode, lexes⟩ := exists_lexes_of_lexed lexed
  have whole := lexes.textOf_eq
  refine ⟨?_, ?_⟩
  · rw [← whole, textOf, Text.utf8, List.flatMap_assoc]
    rfl
  · intro before token after split
    have cut : source = textOf before ++ (token.text ++ textOf after) := by
      rw [← whole, split, textOf_append, textOf_cons]
    have bytes : Text.utf8 source =
        Text.utf8 (textOf before) ++ (Text.utf8 token.text ++ Text.utf8 (textOf after)) := by
      rw [cut, Text.utf8_append, Text.utf8_append]
    have line : token.line = 1 + ((Text.utf8 source).take
        (Text.utf8 (textOf before)).length).count 10 := by
      rw [lexes.line_eq split, bytes, List.take_left, Text.count_newline_utf8]
      rfl
    refine ⟨?_, ?_, ?_, ?_, line, ?_⟩
    · exact lexes.text_ne_nil token (by simp [split])
    · rw [cut]
      exact Text.isValid_utf8_append _ _
    · rw [cut, ← List.append_assoc, ← List.length_append, ← Text.utf8_append]
      exact Text.isValid_utf8_append _ _
    · rw [bytes, List.drop_left, List.take_left]
    · have counted : ((Text.utf8 source).take (Text.utf8 (textOf before)).length).count 10 ≤
          (Text.utf8 source).length :=
        Nat.le_trans List.count_le_length (List.length_take_le' _ _)
      omega

/-- A backslash in front of a character of two bytes, inside a string behind the first line. -/
def escapedCharacter : Text :=
  "<?php\n'\\é';"

def escapedCharacterTokens : List Token :=
  [⟨.openTag, "<?php\n", 1⟩, ⟨.stringLiteral, "'\\é'", 2⟩, ⟨.semicolon, ";", 2⟩]

theorem tokenize_escapedCharacter : tokenize escapedCharacter = .ok escapedCharacterTokens :=
  eq_ok_of_toOption (by decide +kernel)

theorem lexing_lossless_escapedCharacter :
    (Text.utf8 escapedCharacter).length < 2 ^ 31 ∧
      tokenize escapedCharacter = .ok escapedCharacterTokens ∧
      escapedCharacterTokens.flatMap (fun token => Text.utf8 token.text) =
        Text.utf8 escapedCharacter := by
  have short : (Text.utf8 escapedCharacter).length < 2 ^ 31 := by decide +kernel
  exact ⟨short, tokenize_escapedCharacter,
    (lexing_lossless _ _ short (.inl tokenize_escapedCharacter)).1⟩

end ConstructorInjection

import Mathlib.Data.List.Basic
import Mathlib.Tactic.Common
import ConstructorInjection.Proofs.StringLiterals
import ConstructorInjection.Proofs.TokenTexts

/-!
The scan that tells attributes from comments, along the texts of tokens. It knows brackets and quotes
only, so that it takes brackets and strings for what they are, passes over most other tokens, and is
misled by what comments and strings in backticks hold.
-/

namespace ConstructorInjection

open scoped Computability

/-! What the scan does along a text. -/

/-- The characters outside of strings that the scan does not pass over. -/
def isNoticed (character : Char) : Bool :=
  character == '\'' || character == '"' || character == '[' || character == ']'

def Unnoticed (text : Text) : Prop :=
  ∀ character ∈ text, isNoticed character = false

instance (text : Text) : Decidable (Unnoticed text) :=
  decidable_of_iff (text.all (!isNoticed ·) = true) (by simp [Unnoticed])

section Scan

variable {text inner part more : Text} {quote : Char}

theorem Unnoticed.of_prefix (unnoticed : Unnoticed text) (isPart : part <+: text) :
    Unnoticed part :=
  fun character member => unnoticed character (isPart.subset member)

theorem Unnoticed.bracketsClose_append (unnoticed : Unnoticed text) (depth : Nat) (closed : Bool)
    (more : Text) :
    bracketsClose depth closed .outside (text ++ more) =
      bracketsClose depth closed .outside more := by
  induction text with
  | nil => rfl
  | cons first rest ih =>
      obtain ⟨plain, later⟩ := List.forall_mem_cons.mp unnoticed
      simp only [isNoticed, Bool.or_eq_false_iff, beq_eq_false_iff_ne] at plain
      obtain ⟨⟨⟨noSingle, noDouble⟩, noOpener⟩, noCloser⟩ := plain
      rw [List.cons_append, bracketsClose, if_neg (not_or.mpr ⟨noSingle, noDouble⟩),
        if_neg noOpener, if_neg fun both => noCloser both.1]
      exact ih later

theorem Unnoticed.bracketsClose_eq (unnoticed : Unnoticed text) (depth : Nat) (closed : Bool) :
    bracketsClose depth closed .outside text = closed := by
  have passed := unnoticed.bracketsClose_append depth closed []
  rwa [List.append_nil, bracketsClose] at passed

theorem Enclosed.bracketsClose_append (enclosed : Enclosed quote inner) (noEscape : quote ≠ '\\')
    (depth : Nat) (closed : Bool) (more : Text) :
    bracketsClose depth closed (.inside quote) (inner ++ quote :: more) =
      bracketsClose depth closed .outside more := by
  induction enclosed with
  | nil => rw [List.nil_append, bracketsClose, if_neg noEscape, if_pos rfl]
  | plain noBackslash noQuote _ ih =>
      rw [List.cons_append, bracketsClose, if_neg noBackslash, if_neg noQuote]
      exact ih
  | escaped _ ih =>
      rw [List.cons_append, List.cons_append, bracketsClose, if_pos rfl, bracketsClose]
      exact ih

theorem Enclosed.bracketsClose_prefix (enclosed : Enclosed quote inner) (isPart : part <+: inner)
    (depth : Nat) (closed : Bool) : bracketsClose depth closed (.inside quote) part = false := by
  induction enclosed generalizing part with
  | nil =>
      cases List.prefix_nil.mp isPart
      rfl
  | plain noBackslash noQuote _ ih =>
      cases part with
      | nil => rfl
      | cons first part =>
          obtain ⟨rfl, later⟩ := List.cons_prefix_cons.mp isPart
          rw [bracketsClose, if_neg noBackslash, if_neg noQuote]
          exact ih later
  | escaped _ ih =>
      cases part with
      | nil => rfl
      | cons first part =>
          obtain ⟨rfl, later⟩ := List.cons_prefix_cons.mp isPart
          rw [bracketsClose, if_pos rfl]
          cases part with
          | nil => rfl
          | cons second part =>
              rw [bracketsClose]
              exact ih (List.cons_prefix_cons.mp later).2

/-- A text that the scan passes over: behind it things are as before, and if the line ends in it,
the brackets have closed in front of it. -/
structure PassedOver (text : Text) : Prop where
  whole (depth : Nat) (closed : Bool) (more : Text) :
    bracketsClose depth closed .outside (text ++ more) = bracketsClose depth closed .outside more
  part {part : Text} (isPart : part <+: text) {depth : Nat} {closed : Bool}
    (closes : bracketsClose depth closed .outside part = true) : closed = true

namespace PassedOver

theorem of_unnoticed (unnoticed : Unnoticed text) : PassedOver text where
  whole := unnoticed.bracketsClose_append
  part isPart depth closed closes := by
    rwa [(unnoticed.of_prefix isPart).bracketsClose_eq] at closes

theorem append (first : PassedOver text) (second : PassedOver more) :
    PassedOver (text ++ more) where
  whole depth closed rest := by rw [List.append_assoc, first.whole, second.whole]
  part {part} isPart depth closed closes := by
    obtain ⟨rest, cut⟩ := isPart
    rcases List.append_eq_append_iff.mp cut with ⟨later, rfl, -⟩ | ⟨later, rfl, rfl⟩
    · exact first.part (List.prefix_append part later) closes
    · rw [first.whole] at closes
      exact second.part (List.prefix_append later rest) closes

end PassedOver

theorem bracketsClose_quote (isQuote : quote = '\'' ∨ quote = '"') (depth : Nat) (closed : Bool)
    (text : Text) :
    bracketsClose depth closed .outside (quote :: text) =
      bracketsClose depth closed (.inside quote) text := by
  rw [bracketsClose, if_pos isQuote]

/-- The line does not end in a string. -/
theorem Enclosed.not_closes_part (enclosed : Enclosed quote inner)
    (isQuote : quote = '\'' ∨ quote = '"') (isPart : part <+: quote :: inner) (filled : part ≠ [])
    (depth : Nat) (closed : Bool) : bracketsClose depth closed .outside part = false := by
  obtain ⟨first, part, rfl⟩ := List.exists_cons_of_ne_nil filled
  obtain ⟨rfl, later⟩ := List.cons_prefix_cons.mp isPart
  rw [bracketsClose_quote isQuote]
  exact enclosed.bracketsClose_prefix later depth closed

theorem Enclosed.passedOver (enclosed : Enclosed quote inner)
    (isQuote : quote = '\'' ∨ quote = '"') : PassedOver (quote :: (inner ++ [quote])) where
  whole depth closed more := by
    have noEscape : quote ≠ '\\' := by rcases isQuote with rfl | rfl <;> decide
    rw [List.cons_append, bracketsClose_quote isQuote, List.append_assoc, List.singleton_append,
      enclosed.bracketsClose_append noEscape]
  part {part} isPart depth closed closes := by
    rw [← List.cons_append, List.prefix_concat_iff] at isPart
    rcases isPart with rfl | isPart
    · have noEscape : quote ≠ '\\' := by rcases isQuote with rfl | rfl <;> decide
      rwa [List.cons_append, bracketsClose_quote isQuote,
        enclosed.bracketsClose_append noEscape, bracketsClose] at closes
    · cases part with
      | nil => exact closes
      | cons first part =>
          rw [enclosed.not_closes_part isQuote isPart (List.cons_ne_nil first part)] at closes
          contradiction

end Scan

/-! The texts of the tokens on the line. -/

/-- A class of characters that has none of those that the scan takes note of. -/
theorem not_isNoticed_of {test : Char → Bool}
    (apart : ['\'', '"', '[', ']'].all (!test ·) = true) :
    ∀ character, test character = true → (!isNoticed character) = true := by
  intro character isIn
  by_contra noticed
  simp only [Bool.not_eq_true', Bool.not_eq_false, isNoticed, Bool.or_eq_true, beq_iff_eq]
    at noticed
  have outside := List.all_eq_true.mp apart character (by simpa [or_assoc] using noticed)
  rw [isIn] at outside
  contradiction

/-- Spelled patterns aside, only the characters in a spelling count. -/
def Pattern.isUnnoticed : Pattern → Bool
  | spelling characters => characters.all (!isNoticed ·)
  | _ => true

theorem within_labels : Within (!isNoticed ·) labels :=
  (within_among (not_isNoticed_of (by decide))).mul
    (within_among (not_isNoticed_of (by decide))).kstar

theorem within_digits : Within (!isNoticed ·) (among isDigitOrUnderscore)∗ :=
  (within_among (not_isNoticed_of (by decide))).kstar

theorem within_exactly {character : Char} (plain : isNoticed character = false) :
    Within (!isNoticed ·) (exactly character) := by
  refine within_among fun other same => ?_
  rw [beq_iff_eq.mp same, plain]
  rfl

theorem within_exponents : Within (!isNoticed ·) (optional exponents) :=
  ((within_among (not_isNoticed_of (by decide))).mul
    ((within_among (not_isNoticed_of (by decide))).optional.mul
      ((within_among (not_isNoticed_of (by decide))).mul within_digits))).optional

theorem Pattern.within_language {pattern : Pattern} (plain : pattern.isUnnoticed = true) :
    Within (!isNoticed ·) pattern.language := by
  cases pattern with
  | spelling characters =>
      rintro _ rfl
      exact List.all_eq_true.mp plain
  | blanks =>
      have isIn := @not_isNoticed_of isLineSpace (by decide)
      exact (within_among isIn).mul (within_among isIn).kstar
  | variableName => exact (within_exactly rfl).mul within_labels
  | name =>
      exact (within_exactly rfl).optional.mul
        (within_labels.mul ((within_exactly rfl).mul within_labels).kstar)
  | radixNumber radix =>
      have isMarker := @not_isNoticed_of radix.isMarker (by cases radix <;> decide)
      have isDigit := @not_isNoticed_of radix.isDigit (by cases radix <;> decide)
      exact (within_exactly rfl).mul
        ((within_among isMarker).mul ((within_among isDigit).mul (within_among isDigit).kstar))
  | decimalNumber =>
      exact (within_among (not_isNoticed_of (by decide))).mul
        (within_digits.mul (((within_exactly rfl).mul within_digits).optional.mul within_exponents))
  | fraction =>
      exact (within_exactly rfl).mul ((within_among (not_isNoticed_of (by decide))).mul
        (within_digits.mul within_exponents))
  | closeTag =>
      exact (within_exactly rfl).mul ((within_exactly rfl).mul
        ((within_exactly rfl).optional.mul (within_exactly rfl)).optional)
  | spoiledCloseTag => exact fun word isWord => absurd isWord (Language.notMem_zero word)

theorem Pattern.unnoticed {pattern : Pattern} (plain : pattern.isUnnoticed = true) {word : Text}
    (isWord : word ∈ pattern.language) : Unnoticed word := by
  intro character member
  simpa using within_language plain word isWord character member

theorem Pattern.prefix_of_mem_closeTag {word : Text} (isWord : word ∈ closeTag.language) :
    ['?', '>'] <+: word := by
  obtain ⟨first, rest, rfl, isMark, isRest⟩ := mem_among_mul.mp isWord
  obtain ⟨second, rest, rfl, isEnd, -⟩ := mem_among_mul.mp isRest
  rw [beq_iff_eq.mp isMark, beq_iff_eq.mp isEnd]
  exact ⟨rest, rfl⟩

theorem IsLabel.enclosed {label : Text} (isLabel : IsLabel label) {quote : Char}
    (isQuote : quote = '\'' ∨ quote = '"') : Enclosed quote label := by
  have parts := isLabel.parts
  clear isLabel
  induction label with
  | nil => exact .nil
  | cons first rest ih =>
      obtain ⟨isPart, later⟩ := List.forall_mem_cons.mp parts
      refine .plain ?_ ?_ (ih later)
      · rintro rfl
        contradiction
      · rintro rfl
        rcases isQuote with rfl | rfl <;> contradiction

theorem Unnoticed.of_class {test : Char → Bool} {text : Text}
    (isIn : ∀ character ∈ text, test character = true)
    (apart : ['\'', '"', '[', ']'].all (!test ·) = true) : Unnoticed text := by
  intro character member
  simpa using not_isNoticed_of apart character (isIn character member)

/-- The opener of a heredoc, whose label may stand in quotes, ends with its line. -/
theorem HeredocOpener.passedOver {label opener : Text} (isOpener : HeredocOpener label opener) :
    ∃ line, opener = line ++ ['\n'] ∧ PassedOver line := by
  cases isOpener with
  | @mk blanks quote lineBreak allBlank quoted isLabel breaks =>
      have blanksPassed := PassedOver.of_unnoticed (Unnoticed.of_class allBlank (by decide))
      have labelPassed : PassedOver (quote ++ (label ++ quote)) := by
        rcases quoted with rfl | rfl | rfl
        · rw [List.nil_append, List.append_nil]
          exact .of_unnoticed (Unnoticed.of_class isLabel.parts (by decide))
        · exact (isLabel.enclosed (.inl rfl)).passedOver (.inl rfl)
        · exact (isLabel.enclosed (.inr rfl)).passedOver (.inr rfl)
      obtain ⟨front, rfl, frontPassed⟩ : ∃ front, lineBreak = front ++ ['\n'] ∧ PassedOver front := by
        rcases breaks with rfl | rfl
        · exact ⟨['\r'], rfl, .of_unnoticed (by decide)⟩
        · exact ⟨[], rfl, .of_unnoticed (by decide)⟩
      refine ⟨blanks ++ ((quote ++ (label ++ quote)) ++ front), by simp, ?_⟩
      exact blanksPassed.append (labelPassed.append frontPassed)

/-! The tokens on the line. -/

/-- What a token does to the brackets that are open and to whether they have closed at some point. -/
def TokenKind.scan : TokenKind → Nat × Bool → Nat × Bool
  | openBracket, (depth, closed) | attributeStart, (depth, closed) => (depth + 1, closed)
  | closeBracket, (depth + 1, closed) => (depth, closed || depth == 0)
  | _, state => state

/-- The kinds whose tokens leave the scan as it is. -/
def TokenKind.isStill : TokenKind → Bool
  | openBracket | attributeStart | closeBracket => false
  | _ => true

theorem TokenKind.scan_of_isStill {kind : TokenKind} (still : kind.isStill = true)
    (state : Nat × Bool) : kind.scan state = state := by
  cases kind with
  | openBracket | attributeStart | closeBracket => contradiction
  | _ => rfl

/-- What a token of code is like for the scan. -/
inductive Token.ScanForm (token : Token) : Prop where
  | plain (still : token.kind.isStill = true) (noString : token.kind ≠ .stringLiteral)
      (noTag : token.kind ≠ .closeTag) (unnoticed : Unnoticed token.text)
  | opener {front : Text} (opens : token.kind = .openBracket ∨ token.kind = .attributeStart)
      (spelled : token.text = front ++ ['[']) (unnoticed : Unnoticed front)
  | closer (closes : token.kind = .closeBracket) (spelled : token.text = [']'])
  | string {quote : Char} {inner : Text} (isString : token.kind = .stringLiteral)
      (isQuoted : token.IsQuoted quote inner)
  | comment (isTrivia : token.kind.isTrivia = true)
  | heredoc {line rest : Text} (isHeredoc : token.kind = .heredoc)
      (spelled : token.text = line ++ '\n' :: rest) (passed : PassedOver line)
  | tag (starts : ['?', '>'] <+: token.text)

/-- A token and as much of its text as stands on the line. Comments and strings in backticks hold
neither quotes nor brackets there, and such strings end on the line. -/
structure HidesNothing (token : Token) (shown : Text) : Prop where
  comment (isTrivia : token.kind.isTrivia = true) : Unnoticed shown
  command (isCommand : token.text.head? = some '\x60') : Unnoticed shown ∧ '\n' ∉ token.text

instance (token : Token) (shown : Text) : Decidable (HidesNothing token shown) :=
  decidable_of_iff ((token.kind.isTrivia = true → Unnoticed shown) ∧
      (token.text.head? = some '\x60' → Unnoticed shown ∧ '\n' ∉ token.text))
    ⟨fun both => ⟨both.1, both.2⟩, fun hides => ⟨hides.comment, hides.command⟩⟩

theorem LexicalRule.whole_cases : ∀ rule ∈ lexicalRules, ∀ kind ∈ rule.lexeme.wholeKind?,
    (rule.pattern = .spelling ['['] ∧ kind = .openBracket) ∨
      (rule.pattern = .spelling [']'] ∧ kind = .closeBracket) ∨
      rule.pattern = .closeTag ∨
      rule.pattern.isUnnoticed = true ∧ kind.isStill = true ∧ kind ≠ .stringLiteral ∧
        kind ≠ .closeTag := by
  decide

theorem LexicalRule.pattern_cases : ∀ rule ∈ lexicalRules,
    (rule.lexeme = .name → rule.pattern = .name) ∧
      (rule.lexeme = .attributeOrComment → rule.pattern = .spelling ['#', '[']) ∧
      (rule.lexeme = .heredoc → rule.pattern = .spelling ['<', '<', '<']) := by
  decide

theorem Piece.scanForm {memberName : Bool} {input : Text} {piece : Piece}
    (next : Piece.ofCode memberName input = .ok piece) (line : Nat) :
    Token.ScanForm ⟨piece.kind, input.take piece.length, line⟩ := by
  by_cases isString : piece.kind = .stringLiteral
  · obtain ⟨-, quote, rest, extent, isQuote, rfl, closed, length⟩ :=
      @Piece.exists_quote .code _ _ _ next isString
    obtain ⟨inner, behind, rfl, rfl, enclosed⟩ := exists_enclosed closed
    refine .string isString ⟨isQuote, ?_, enclosed⟩
    simp [length, List.take_append]
  have isToken := Piece.isCodeToken next
  generalize piece.kind = kind, piece.length = length at *
  cases isToken with
  | spoiled spoiled =>
      obtain ⟨rest, rfl, -⟩ := spoiled
      exact .tag (List.prefix_append ['?', '>'] [])
  | @matched rule length extent sound longest takes =>
      have isWord := longest.mem
      obtain ⟨ofName, ofAttribute, ofHeredoc⟩ := LexicalRule.pattern_cases rule longest.isRule
      cases lexeme : rule.lexeme with
      | whole kind =>
          rw [lexeme] at takes isString
          obtain rfl : extent = 0 := takes
          have isWhole : kind ∈ rule.lexeme.wholeKind? := by rw [lexeme]; rfl
          rcases LexicalRule.whole_cases rule longest.isRule kind isWhole with
            ⟨pattern, rfl⟩ | ⟨pattern, rfl⟩ | pattern | ⟨unnoticed, still, noString, noTag⟩
          · rw [pattern] at isWord
            exact .opener (.inl rfl) (show _ = [] ++ ['['] from isWord) (by decide)
          · rw [pattern] at isWord
            exact .closer rfl isWord
          · rw [pattern] at isWord
            exact .tag (Pattern.prefix_of_mem_closeTag isWord)
          · exact .plain still noString noTag (Pattern.unnoticed unnoticed isWord)
      | name =>
          rw [lexeme] at takes
          obtain rfl : extent = 0 := takes
          rw [ofName lexeme] at isWord
          have unnoticed := Pattern.unnoticed rfl isWord
          rw [Lexeme.kind, nameKind]
          split
          · exact .plain rfl (by simp) (by simp) unnoticed
          · split
            · exact .plain rfl (by simp) (by simp) unnoticed
            · exact .plain rfl (by simp) (by simp) unnoticed
      | lineComment => exact .comment rfl
      | attributeOrComment =>
          rw [lexeme, Lexeme.Takes] at takes
          rw [Lexeme.kind]
          split at takes
          next closes =>
            subst takes
            rw [if_pos closes]
            rw [ofAttribute lexeme] at isWord
            exact .opener (.inr rfl) (show _ = ['#'] ++ ['['] from isWord)
              (by decide)
          next noAttribute =>
            rw [if_neg noAttribute]
            exact .comment rfl
      | blockComment => exact .comment (isTrivia_blockCommentKind _)
      | quoted quote =>
          rw [lexeme] at isString
          exact absurd rfl isString
      | heredoc =>
          rw [lexeme] at takes
          rw [ofHeredoc lexeme] at isWord
          obtain ⟨label, opener, text, body, closing, behind, isOpener, -, -, rfl⟩ := takes
          obtain ⟨front, rfl, passed⟩ := isOpener.passedOver
          have arrows : PassedOver ['<', '<', '<'] := .of_unnoticed (by decide)
          have spelled : input.take (length + ((front ++ ['\n']).length + (body + closing.length))) =
              (['<', '<', '<'] ++ front) ++ '\n' :: text.take (body + closing.length) := by
            rw [List.take_add, show input.take length = ['<', '<', '<'] from isWord, behind,
              List.take_length_add_append]
            simp
          exact .heredoc rfl spelled (arrows.append passed)

theorem prefix_of_noFeed {part line rest : Text} (isPart : part <+: line ++ '\n' :: rest)
    (onLine : '\n' ∉ part) : part <+: line := by
  obtain ⟨later, cut⟩ := isPart
  rcases List.append_eq_append_iff.mp cut with ⟨between, rfl, -⟩ | ⟨between, rfl, behind⟩
  · exact List.prefix_append part between
  · cases between with
    | nil => simp
    | cons first between =>
        cases (List.cons.inj behind).1
        simp at onLine

theorem mem_quotes {quote : Char} (isQuote : quote ∈ quotes) :
    (quote = '\'' ∨ quote = '"') ∨ quote = '\x60' := by
  simpa [quotes, or_assoc] using isQuote

theorem TokenKind.isStill_of_isTrivia {kind : TokenKind} (isTrivia : kind.isTrivia = true) :
    kind.isStill = true := by
  cases kind with
  | openBracket | attributeStart | closeBracket => contradiction
  | _ => rfl

namespace Token.ScanForm

variable {token : Token} {part : Text}

/-- The scan of a whole token on the line comes to what the token does. -/
theorem scan_whole (scanForm : token.ScanForm) (hides : HidesNothing token token.text)
    (onLine : '\n' ∉ token.text) (noTag : ¬ ['?', '>'] <+: token.text) (state : Nat × Bool)
    (more : Text) :
    bracketsClose state.1 state.2 .outside (token.text ++ more) =
      bracketsClose (token.kind.scan state).1 (token.kind.scan state).2 .outside more := by
  cases scanForm with
  | plain still _ _ unnoticed =>
      rw [unnoticed.bracketsClose_append, TokenKind.scan_of_isStill still]
  | opener opens spelled unnoticed =>
      have scanned : token.kind.scan state = (state.1 + 1, state.2) := by
        rcases opens with opens | opens <;> rw [opens] <;> rfl
      rw [scanned, spelled, List.append_assoc, unnoticed.bracketsClose_append]
      rfl
  | closer closes spelled =>
      obtain ⟨depth, closed⟩ := state
      rw [closes, spelled]
      cases depth with
      | zero => rfl
      | succ depth => simp [bracketsClose, TokenKind.scan]
  | @string quote inner isString isQuoted =>
      have still : token.kind.isStill = true := by
        rw [isString]
        rfl
      rw [TokenKind.scan_of_isStill still]
      rcases mem_quotes isQuoted.isQuote with isQuote | isCommand
      · rw [isQuoted.spelled, (isQuoted.enclosed.passedOver isQuote).whole]
      · have unnoticed := (hides.command (by rw [isQuoted.spelled, isCommand]; rfl)).1
        rw [unnoticed.bracketsClose_append]
  | comment isTrivia =>
      rw [(hides.comment isTrivia).bracketsClose_append,
        TokenKind.scan_of_isStill (TokenKind.isStill_of_isTrivia isTrivia)]
  | heredoc _ spelled _ =>
      rw [spelled] at onLine
      simp at onLine
  | tag starts => exact absurd starts noTag

/-- Where the line ends in a token, the brackets have closed in front of it, and it is no string but
one in backticks. -/
theorem scan_part (scanForm : token.ScanForm) (hides : HidesNothing token part)
    (isPart : part <+: token.text) (short : part ≠ token.text) (filled : part ≠ [])
    (onLine : '\n' ∉ part) (noTag : ¬ ['?', '>'] <+: token.text) {depth : Nat} {closed : Bool}
    (closes : bracketsClose depth closed .outside part = true) :
    closed = true ∧ (token.kind = .stringLiteral → '\n' ∉ token.text) := by
  cases scanForm with
  | plain _ noString _ unnoticed =>
      rw [(unnoticed.of_prefix isPart).bracketsClose_eq] at closes
      exact ⟨closes, fun isString => absurd isString noString⟩
  | opener opens spelled unnoticed =>
      rw [spelled, List.prefix_concat_iff] at isPart
      rcases isPart with whole | isPart
      · exact absurd (whole.trans spelled.symm) short
      · rw [(unnoticed.of_prefix isPart).bracketsClose_eq] at closes
        refine ⟨closes, fun isString => ?_⟩
        rw [isString] at opens
        simp at opens
  | closer _ spelled =>
      rw [spelled, ← List.nil_append [']'], List.prefix_concat_iff] at isPart
      rcases isPart with whole | isPart
      · exact absurd (whole.trans spelled.symm) short
      · exact absurd (List.prefix_nil.mp isPart) filled
  | @string quote inner _ isQuoted =>
      rcases mem_quotes isQuoted.isQuote with isQuote | isCommand
      · rw [isQuoted.spelled, ← List.cons_append, List.prefix_concat_iff] at isPart
        rcases isPart with whole | isPart
        · exact absurd (whole.trans isQuoted.spelled.symm) short
        · rw [isQuoted.enclosed.not_closes_part isQuote isPart filled] at closes
          contradiction
      · obtain ⟨unnoticed, noFeed⟩ := hides.command (by rw [isQuoted.spelled, isCommand]; rfl)
        rw [unnoticed.bracketsClose_eq] at closes
        exact ⟨closes, fun _ => noFeed⟩
  | comment isTrivia =>
      rw [(hides.comment isTrivia).bracketsClose_eq] at closes
      refine ⟨closes, fun isString => ?_⟩
      rw [isString] at isTrivia
      contradiction
  | heredoc isHeredoc spelled passed =>
      rw [spelled] at isPart
      refine ⟨passed.part (prefix_of_noFeed isPart onLine) closes, fun isString => ?_⟩
      rw [isString] at isHeredoc
      contradiction
  | tag starts => exact absurd starts noTag

/-- The line goes on in code. -/
theorem after_code (scanForm : token.ScanForm) (noTag : ¬ ['?', '>'] <+: token.text) :
    LexMode.code.after token.kind = .code := by
  have noCloseTag : token.kind ≠ .closeTag := by
    intro isTag
    cases scanForm with
    | plain _ _ noCloseTag _ => exact noCloseTag isTag
    | opener opens _ _ => simp [isTag] at opens
    | closer closes _ => simp [isTag] at closes
    | string isString _ => simp [isTag] at isString
    | comment isTrivia =>
        rw [isTag] at isTrivia
        contradiction
    | heredoc isHeredoc _ _ => simp [isTag] at isHeredoc
    | tag starts => exact noTag starts
  unfold LexMode.after
  split
  · rfl
  · rfl
  next isTag => exact absurd isTag noCloseTag
  · rfl

end Token.ScanForm

end ConstructorInjection

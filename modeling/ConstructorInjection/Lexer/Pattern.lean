import ConstructorInjection.Token

/-!
The patterns of PHP code and the longest match among them. A pattern covers a token only as far as
a regular expression can say it: of a comment, a string or a heredoc it covers the opener.
-/

namespace ConstructorInjection

def isBlank (character : Char) : Bool :=
  character == ' ' || character == '\t'

def isLineSpace (character : Char) : Bool :=
  isBlank character || character == '\r' || character == '\n'

/-- Names start with a letter, an underscore or any character beyond ASCII. -/
def isLabelStart (character : Char) : Bool :=
  character.isAlpha || character == '_' || 0x80 ≤ character.toNat

def isLabelPart (character : Char) : Bool :=
  isLabelStart character || character.isDigit

def isDigitOrUnderscore (character : Char) : Bool :=
  character.isDigit || character == '_'

def isHexadecimal (character : Char) : Bool :=
  isDigitOrUnderscore character || ('a' ≤ character && character ≤ 'f') ||
    ('A' ≤ character && character ≤ 'F')

def isBinary (character : Char) : Bool :=
  character == '0' || character == '1' || character == '_'

def isOctal (character : Char) : Bool :=
  ('0' ≤ character && character ≤ '7') || character == '_'

/-- Characters of the label at the start of the text. -/
def labelLength : Text → Nat
  | [] => 0
  | first :: rest => if isLabelStart first then (rest.takeWhile isLabelPart).length + 1 else 0

/-- Characters of the labels, each after a backslash, at the start of the text. -/
def segmentsLength : Text → Nat
  | '\\' :: rest =>
    let label := labelLength rest
    if label = 0 then 0 else label + 1 + segmentsLength (rest.drop label)
  | _ => 0
termination_by text => text.length
decreasing_by simp only [List.length_drop, List.length_cons]; omega

def exponentLength : Text → Nat
  | 'e' :: rest | 'E' :: rest =>
    let sign :=
      match rest with
      | '+' :: _ | '-' :: _ => 1
      | _ => 0
    let digits := ((rest.drop sign).takeWhile isDigitOrUnderscore).length
    if digits = 0 then 0 else digits + sign + 1
  | _ => 0

inductive Radix where
  | hexadecimal
  | binary
  | octal
  deriving DecidableEq

namespace Radix

def isMarker : Radix → Char → Bool
  | hexadecimal, marker => marker == 'x' || marker == 'X'
  | binary, marker => marker == 'b' || marker == 'B'
  | octal, marker => marker == 'o' || marker == 'O'

def isDigit : Radix → Char → Bool
  | hexadecimal => isHexadecimal
  | binary => isBinary
  | octal => isOctal

end Radix

inductive Pattern where
  | spelling (characters : Text)
  | blanks
  /-- A dollar sign and a label. -/
  | variableName
  /-- Labels joined by backslashes, with or without one in front. -/
  | name
  /-- Zero, the marker of the radix, and digits or underscores. -/
  | radixNumber (radix : Radix)
  /-- Digits, with or without a fraction and an exponent. -/
  | decimalNumber
  /-- A point and digits, with or without an exponent. -/
  | fraction
  /-- `?>` with a line break after it. A carriage return without its line feed spoils it. -/
  | closeTag
  /-- `?>` before a carriage return without its line feed. -/
  | spoiledCloseTag
  deriving DecidableEq

/-- Characters of the longest text at the start of the input that a pattern describes; zero when it
describes none. -/
def Pattern.matchLength : Pattern → Text → Nat
  | spelling characters, input => if characters.isPrefixOf input then characters.length else 0
  | blanks, input => (input.takeWhile isLineSpace).length
  | variableName, '$' :: rest => if labelLength rest = 0 then 0 else labelLength rest + 1
  | variableName, _ => 0
  | name, '\\' :: rest => segmentsLength ('\\' :: rest)
  | name, input =>
    if labelLength input = 0 then 0
    else labelLength input + segmentsLength (input.drop (labelLength input))
  | radixNumber radix, '0' :: marker :: rest =>
    let digits := (rest.takeWhile radix.isDigit).length
    if radix.isMarker marker && digits ≠ 0 then digits + 2 else 0
  | radixNumber _, _ => 0
  | decimalNumber, [] => 0
  | decimalNumber, first :: rest =>
    if first.isDigit then
      let whole := (rest.takeWhile isDigitOrUnderscore).length + 1
      let point :=
        match (first :: rest).drop whole with
        | '.' :: decimals => (decimals.takeWhile isDigitOrUnderscore).length + 1
        | _ => 0
      whole + point + exponentLength ((first :: rest).drop (whole + point))
    else 0
  | fraction, '.' :: first :: rest =>
    if first.isDigit then
      let digits := (rest.takeWhile isDigitOrUnderscore).length
      digits + 2 + exponentLength (rest.drop digits)
    else 0
  | fraction, _ => 0
  | closeTag, '?' :: '>' :: '\r' :: '\n' :: _ => 4
  | closeTag, '?' :: '>' :: '\r' :: _ => 0
  | closeTag, '?' :: '>' :: '\n' :: _ => 3
  | closeTag, '?' :: '>' :: _ => 2
  | closeTag, _ => 0
  | spoiledCloseTag, '?' :: '>' :: '\r' :: '\n' :: _ => 0
  | spoiledCloseTag, '?' :: '>' :: '\r' :: _ => 2
  | spoiledCloseTag, _ => 0

/-- What a pattern has found: a whole token, a name still to be classified, or the opener of a
token whose end is found by scanning on. -/
inductive Lexeme where
  | whole (kind : TokenKind)
  | name
  | lineComment
  | blockComment
  | quoted (quote : Char)
  | heredoc
  /-- `#[`, which opens an attribute or a line comment. -/
  | attributeOrComment
  deriving DecidableEq

structure LexicalRule where
  pattern : Pattern
  lexeme : Lexeme
  deriving DecidableEq

/-- Delimiters and punctuation with a kind of their own. -/
def punctuation : List (Text × TokenKind) :=
  [(['\x7b'], .openBrace), (['\x7d'], .closeBrace), (['('], .openParen), ([')'], .closeParen),
   (['['], .openBracket), ([']'], .closeBracket), ([';'], .semicolon), ([','], .comma),
   ([':', ':'], .doubleColon), (['-', '>'], .objectOperator),
   (['?', '-', '>'], .nullsafeObjectOperator), (['=', '>'], .doubleArrow), (['='], .assign),
   (['&'], .ampersand), (['.', '.', '.'], .ellipsis), (['?'], .question), (['$'], .dollar),
   (['@'], .atSign)]

def operators : List Text :=
  [['=', '='], ['=', '=', '='], ['!', '='], ['!', '=', '='], ['<', '>'], ['<', '=', '>'],
   ['<', '='], ['>', '='], ['&', '&'], ['|', '|'], ['?', '?'], ['?', '?', '='], ['+', '+'],
   ['-', '-'], ['+', '='], ['-', '='], ['*', '='], ['/', '='], ['.', '='], ['%', '='], ['&', '='],
   ['|', '='], ['^', '='], ['<', '<', '='], ['>', '>', '='], ['<', '<'], ['>', '>'], ['*', '*'],
   ['*', '*', '='], ['+'], ['-'], ['*'], ['/'], ['%'], ['<'], ['>'], ['!'], ['.'], ['|'], ['^'],
   ['~'], [':']]

def lexicalRules : List LexicalRule :=
  [⟨.blanks, .whole .whitespace⟩,
   ⟨.spelling ['/', '/'], .lineComment⟩, ⟨.spelling ['#'], .lineComment⟩,
   ⟨.spelling ['/', '*'], .blockComment⟩,
   ⟨.spelling ['\''], .quoted '\''⟩, ⟨.spelling ['"'], .quoted '"'⟩,
   ⟨.spelling ['\x60'], .quoted '\x60'⟩,
   ⟨.spelling ['<', '<', '<'], .heredoc⟩,
   ⟨.variableName, .whole .variableName⟩, ⟨.name, .name⟩,
   ⟨.radixNumber .hexadecimal, .whole .number⟩, ⟨.radixNumber .binary, .whole .number⟩,
   ⟨.radixNumber .octal, .whole .number⟩, ⟨.decimalNumber, .whole .number⟩,
   ⟨.fraction, .whole .number⟩,
   ⟨.closeTag, .whole .closeTag⟩, ⟨.spoiledCloseTag, .whole .question⟩,
   ⟨.spelling ['#', '['], .attributeOrComment⟩] ++
  punctuation.map (fun (characters, kind) => ⟨.spelling characters, .whole kind⟩) ++
  operators.map (fun characters => ⟨.spelling characters, .whole .operator⟩)

structure LexicalMatch where
  lexeme : Lexeme
  length : Nat

/-- The longest of the matches of some rules, the first one among equals. -/
def longestAmong (input : Text) : List LexicalRule → Option LexicalMatch
  | [] => none
  | rule :: rules =>
    let length := rule.pattern.matchLength input
    match longestAmong input rules with
    | some found => if length < found.length then some found else some ⟨rule.lexeme, length⟩
    | none => if length = 0 then none else some ⟨rule.lexeme, length⟩

def longestMatch (input : Text) : Option LexicalMatch :=
  longestAmong input lexicalRules

theorem longestAmong_length_pos {input : Text} {rules : List LexicalRule} {found : LexicalMatch}
    (result : longestAmong input rules = some found) : 0 < found.length := by
  induction rules generalizing found with
  | nil => simp [longestAmong] at result
  | cons rule rules ih =>
    simp only [longestAmong] at result
    split at result
    next later laterResult =>
      have positive := ih laterResult
      split at result <;> cases result
      · exact positive
      · simp only; omega
    next =>
      split at result
      · contradiction
      · cases result; simp only; omega

theorem longestMatch_length_pos {input : Text} {found : LexicalMatch}
    (result : longestMatch input = some found) : 0 < found.length :=
  longestAmong_length_pos result

end ConstructorInjection

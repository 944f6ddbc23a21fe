import ConstructorInjection.Text

/-!
Tokens of a PHP file. Every character of a file belongs to a token: blanks, comments and the HTML
around the code are tokens too.
-/

namespace ConstructorInjection

inductive TokenKind where
  /-- Text outside the PHP tags. -/
  | inlineHtml
  /-- `<?php` with the blank after it. -/
  | openTag
  /-- `<?=` -/
  | openTagWithEcho
  /-- `?>` with a line break directly after it. -/
  | closeTag
  | whitespace
  | lineComment
  | blockComment
  | docComment
  /-- `$name` -/
  | variableName
  /-- A name without a backslash that is not a keyword. -/
  | identifier
  /-- A name with a backslash. -/
  | qualifiedName
  | keyword
  | stringLiteral
  /-- A heredoc or nowdoc, from `<<<` through the closing label. -/
  | heredoc
  | number
  | openBrace
  | closeBrace
  | openParen
  | closeParen
  | openBracket
  | closeBracket
  | semicolon
  | comma
  /-- `::` -/
  | doubleColon
  /-- `->` -/
  | objectOperator
  /-- `?->` -/
  | nullsafeObjectOperator
  /-- `=>` -/
  | doubleArrow
  /-- `=` -/
  | assign
  | ampersand
  | ellipsis
  | question
  /-- `#[` -/
  | attributeStart
  /-- `$` without a name after it. -/
  | dollar
  | atSign
  /-- Every other operator. -/
  | operator
  deriving DecidableEq

namespace TokenKind

/-- Blanks and comments. -/
def isTrivia : TokenKind → Bool
  | whitespace | lineComment | blockComment | docComment => true
  | _ => false

/-- The closing delimiter that an opening one asks for; `#[` opens a bracket. -/
def closing? : TokenKind → Option TokenKind
  | openBrace => some closeBrace
  | openParen => some closeParen
  | openBracket | attributeStart => some closeBracket
  | _ => none

def isOpener (kind : TokenKind) : Bool :=
  kind.closing?.isSome

def isCloser : TokenKind → Bool
  | closeBrace | closeParen | closeBracket => true
  | _ => false

/-- The operators that a member name follows. -/
def isMemberOperator : TokenKind → Bool
  | doubleColon | objectOperator | nullsafeObjectOperator => true
  | _ => false

/-- The kinds of a name that is no keyword. -/
def isName : TokenKind → Bool
  | identifier | qualifiedName => true
  | _ => false

/-- The name of the kind in a token listing. -/
def name : TokenKind → Text
  | inlineHtml => "inline-html"
  | openTag => "open-tag"
  | openTagWithEcho => "open-tag-echo"
  | closeTag => "close-tag"
  | whitespace => "whitespace"
  | lineComment => "line-comment"
  | blockComment => "block-comment"
  | docComment => "doc-comment"
  | variableName => "variable"
  | identifier => "identifier"
  | qualifiedName => "qualified-name"
  | keyword => "keyword"
  | stringLiteral => "string"
  | heredoc => "heredoc"
  | number => "number"
  | openBrace => ['\x7b']
  | closeBrace => ['\x7d']
  | openParen => "("
  | closeParen => ")"
  | openBracket => "["
  | closeBracket => "]"
  | semicolon => ";"
  | comma => ","
  | doubleColon => "::"
  | objectOperator => "->"
  | nullsafeObjectOperator => "?->"
  | doubleArrow => "=>"
  | assign => "="
  | ampersand => "&"
  | ellipsis => "..."
  | question => "?"
  | attributeStart => "#["
  | dollar => "$"
  | atSign => "@"
  | operator => "operator"

end TokenKind

/-- A token with its text and the line, counted from one, on which it starts. Tokens that no file
holds are on line zero. -/
structure Token where
  kind : TokenKind
  text : Text
  line : Nat
  deriving DecidableEq

namespace Token

def isTrivia (token : Token) : Bool :=
  token.kind.isTrivia

/-- PHP reads its keywords in any case. -/
def isKeyword (token : Token) (word : Text) : Bool :=
  token.kind == .keyword && token.text.equalIgnoringCase word

/-- A name, qualified or not, that equals `name` in any case. -/
def isNamed (token : Token) (name : Text) : Bool :=
  token.kind.isName && token.text.equalIgnoringCase name

def hasNewline (token : Token) : Bool :=
  token.text.contains '\n'

end Token

/-- The text that tokens stand for. -/
def textOf (tokens : List Token) : Text :=
  tokens.flatMap Token.text

end ConstructorInjection

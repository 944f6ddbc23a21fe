import ConstructorInjection.TokenStream

/-!
The layout of the code around a place: line breaks, indentation, and the tokens between two
delimiters that are not blank. Comments count as content here, so that code put behind a comment at
the end of a body does not become part of it.
-/

namespace ConstructorInjection

/-- What follows the last line feed of a blank token. -/
def Token.lineIndent? (token : Token) : Option Text :=
  if token.kind = .whitespace ∧ token.hasNewline then
    some (token.text.reverse.takeWhile (· ≠ '\n')).reverse
  else none

def Token.isLineBreak (token : Token) : Bool :=
  token.kind == .whitespace && token.hasNewline

namespace TokenStream

/-- The indentation of the token at an index, when it is the first of its line. -/
def indentBefore? (stream : TokenStream) : Nat → Option Text
  | 0 => none
  | before + 1 => stream[before]?.bind Token.lineIndent?

/-- The line break of a file: the first one among the blanks decides. -/
def lineEnding (stream : TokenStream) : Text :=
  match stream.find? Token.isLineBreak with
  | some token => if Text.holds ['\r', '\n'] token.text then ['\r', '\n'] else ['\n']
  | none => ['\n']

def spansLines (stream : TokenStream) (opening closing : Nat) : Bool :=
  (stream.slice ⟨opening + 1, closing⟩).any Token.isLineBreak

def lastContent? (stream : TokenStream) (opening closing : Nat) : Option Nat :=
  stream.lastIn? ⟨opening + 1, closing⟩ (·.kind != .whitespace)

def firstContent? (stream : TokenStream) (opening closing : Nat) : Option Nat :=
  stream.firstIn? ⟨opening + 1, closing⟩ (·.kind != .whitespace)

/-- The first blank token behind the end of a statement that more tokens follow, for tokens with
`depth` delimiters open. -/
def separatorAmong? (depth : Nat) : List Token → Option Text
  | token :: blank :: rest =>
    let inside :=
      if token.kind.isOpener then depth + 1
      else if token.kind.isCloser then depth - 1
      else depth
    let endsStatement := token.kind = .semicolon ∨ token.kind = .closeBrace
    if inside = 0 ∧ endsStatement ∧ blank.kind = .whitespace then some blank.text
    else separatorAmong? inside (blank :: rest)
  | _ => none

/-- The blanks between the statements of a body on one line, whose brace and last content are at the
given indices. -/
def inlineSeparator? (stream : TokenStream) (opening last : Nat) : Option Text :=
  separatorAmong? 0 (stream.slice ⟨opening + 1, last⟩)

end TokenStream

end ConstructorInjection

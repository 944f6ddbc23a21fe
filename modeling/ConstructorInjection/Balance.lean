import ConstructorInjection.Lexer

/-!
Delimiters must match: braces, parentheses and brackets, where `#[` opens a bracket.
-/

namespace ConstructorInjection

/-- A delimiter that is open, with its kind, its first byte and its line. -/
structure OpenDelimiter where
  kind : TokenKind
  offset : Nat
  line : Nat
  character : Char

/-- An attribute shows as the bracket that it opens. -/
def OpenDelimiter.ofToken (token : Token) (offset : Nat) : OpenDelimiter :=
  ⟨token.kind, offset, token.line,
    if token.kind = .attributeStart then '[' else token.text.headD '\x00'⟩

/-- The first fault in the nesting of tokens, with the delimiters that are open before them, the
innermost first. -/
def nestingError? (opened : List OpenDelimiter) (offset : Nat) : List Token → Option LexError
  | [] =>
    match opened with
    | [] => none
    | innermost :: _ =>
      some ⟨.unclosedDelimiter innermost.character, innermost.line,
        ⟨innermost.offset, innermost.offset + 1⟩⟩
  | token :: rest =>
    let stop := offset + token.text.byteLength
    if token.kind.isOpener then
      nestingError? (OpenDelimiter.ofToken token offset :: opened) stop rest
    else if token.kind.isCloser then
      let closer := token.text.headD '\x00'
      match opened with
      | [] => some ⟨.unexpectedCloser closer, token.line, ⟨offset, stop⟩⟩
      | innermost :: outer =>
        if innermost.kind.closing? = some token.kind then nestingError? outer stop rest
        else
          some ⟨.mismatchedDelimiter innermost.character closer innermost.line, token.line,
            ⟨offset, stop⟩⟩
    else nestingError? opened stop rest

def tokenize (source : Text) : Except LexError (List Token) :=
  match lexFile source with
  | .error error => .error error
  | .ok tokens =>
    match nestingError? [] 0 tokens with
    | some error => .error error
    | none => .ok tokens

/-- Token sequences in which every delimiter has its partner. -/
inductive Nested : List Token → Prop where
  | nil : Nested []
  | plain {token : Token} {rest : List Token} (noOpener : token.kind.isOpener = false)
      (noCloser : token.kind.isCloser = false) : Nested rest → Nested (token :: rest)
  | pair {opener closer : Token} {inner rest : List Token}
      (partners : opener.kind.closing? = some closer.kind) :
      Nested inner → Nested rest → Nested (opener :: inner ++ closer :: rest)

end ConstructorInjection

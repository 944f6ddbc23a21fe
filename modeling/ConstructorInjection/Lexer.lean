import ConstructorInjection.Keyword
import ConstructorInjection.LexError
import ConstructorInjection.Lexer.Extent
import ConstructorInjection.Lexer.OpenTag
import ConstructorInjection.Unicode

/-!
The tokens of a text. A piece is the first token of what is left; the text is cut into pieces from
left to right, in HTML or in code, until it is used up or refused.
-/

namespace ConstructorInjection

inductive LexMode where
  | html
  | code
  deriving DecidableEq

/-- A kind, and the characters that the token takes. -/
structure Piece where
  kind : TokenKind
  length : Nat
  length_pos : 0 < length

/-- A fault, and the characters that the blame falls on. -/
structure Refusal where
  fault : LexFault
  length : Nat

/-- A comment in the manner of `/**` needs a blank after the second asterisk. -/
def blockCommentKind (text : Text) : TokenKind :=
  match text with
  | '/' :: '*' :: '*' :: blank :: _ =>
    if 4 < text.byteLength && (isLineSpace blank || blank == '\x0c') then .docComment
    else .blockComment
  | _ => .blockComment

/-- A name with a backslash is qualified. A reserved word is a keyword, except where a member name
stands. -/
def nameKind (memberName : Bool) (text : Text) : TokenKind :=
  if text.contains '\\' then .qualifiedName
  else if !memberName && isReservedWord text then .keyword
  else .identifier

/-- The label that the message on an unterminated heredoc shows, read from the text after `<<<`. -/
def shownLabel (rest : Text) : Text :=
  ((rest.dropWhile isBlank).dropWhile (fun c => c == '\'' || c == '"')).takeWhile
    (fun c => c == '_' || Unicode.isAlphanumeric c)

/-- The piece that a match begins. The match covers the first `found.length` characters. -/
def Piece.ofMatch (memberName : Bool) (input : Text) (found : LexicalMatch)
    (positive : 0 < found.length) : Except Refusal Piece :=
  let rest := input.drop found.length
  match found.lexeme with
  | .whole kind => .ok ⟨kind, found.length, positive⟩
  | .name => .ok ⟨nameKind memberName (input.take found.length), found.length, positive⟩
  | .lineComment => .ok ⟨.lineComment, found.length + lineCommentExtent rest, by omega⟩
  | .attributeOrComment =>
    if closesAttribute rest then .ok ⟨.attributeStart, found.length, positive⟩
    else .ok ⟨.lineComment, found.length + lineCommentExtent rest, by omega⟩
  | .blockComment =>
    match blockCommentExtent rest with
    | some extent =>
      .ok ⟨blockCommentKind (input.take (found.length + extent)), found.length + extent, by omega⟩
    | none => .error ⟨.unterminatedComment, input.length⟩
  | .quoted quote =>
    match quotedExtent quote rest with
    | some extent => .ok ⟨.stringLiteral, found.length + extent, by omega⟩
    | none => .error ⟨.unterminatedString, input.length⟩
  | .heredoc =>
    match heredocExtent rest with
    | .closed extent => .ok ⟨.heredoc, found.length + extent, by omega⟩
    | .unterminated => .error ⟨.unterminatedHeredoc (shownLabel rest), input.length⟩
    | .malformed => .error ⟨.malformedHeredoc, found.length⟩

def Piece.ofCode (memberName : Bool) (input : Text) : Except Refusal Piece :=
  match result : longestMatch input with
  | some found => Piece.ofMatch memberName input found (longestMatch_length_pos result)
  | none => .error ⟨.unexpectedCharacter (input.headD '\x00'), 1⟩

/-- The first piece of HTML: an open tag, or the text before the next one. -/
def Piece.ofHtml (input : Text) : Piece :=
  match openTagAt? input with
  | some tag => ⟨tag.kind, tag.length, tag.length_pos⟩
  | none => ⟨.inlineHtml, htmlExtent (input.drop 1) + 1, by omega⟩

def Piece.next (mode : LexMode) (memberName : Bool) (input : Text) : Except Refusal Piece :=
  match mode with
  | .html => .ok (Piece.ofHtml input)
  | .code => Piece.ofCode memberName input

def LexMode.after (mode : LexMode) : TokenKind → LexMode
  | .openTag | .openTagWithEcho => .code
  | .closeTag => .html
  | _ => mode

/-- Whether the next name after a token is a member's or a function's. Blanks and comments leave the
question as it was. -/
def memberNameAfter (memberName : Bool) (kind : TokenKind) (text : Text) : Bool :=
  if kind.isTrivia then memberName
  else kind.isMemberOperator || (kind == .keyword && text.equalIgnoringCase "function")

/-- A place in the source: the bytes before it, and its line. -/
structure Place where
  offset : Nat
  line : Nat

def Place.after (place : Place) (text : Text) : Place :=
  ⟨place.offset + text.byteLength, place.line + text.count '\n'⟩

def Refusal.toError (refusal : Refusal) (place : Place) (input : Text) : LexError :=
  ⟨refusal.fault, place.line,
    ⟨place.offset, place.offset + Text.byteLength (input.take refusal.length)⟩⟩

/-- The tokens of a text that starts in some mode at some place. -/
def lexFrom (mode : LexMode) (memberName : Bool) (place : Place) (input : Text) :
    Except LexError (List Token) :=
  if input = [] then .ok []
  else
    match Piece.next mode memberName input with
    | .error refusal => .error (refusal.toError place input)
    | .ok piece =>
      let text := input.take piece.length
      let others := lexFrom (mode.after piece.kind) (memberNameAfter memberName piece.kind text)
        (place.after text) (input.drop piece.length)
      others.map (⟨piece.kind, text, place.line⟩ :: ·)
termination_by input.length
decreasing_by
  have nonempty := List.length_pos_iff.mpr ‹input ≠ []›
  have positive := piece.length_pos
  simp only [List.length_drop]
  omega

def Place.start : Place :=
  ⟨0, 1⟩

/-- The tokens of a whole file, whose delimiters need not be balanced. -/
def lexFile (source : Text) : Except LexError (List Token) :=
  lexFrom .html false Place.start source

/-- The tokens of code without an open tag. -/
def lexFragment (source : Text) : Except LexError (List Token) :=
  lexFrom .code false Place.start source

/-- The tokens of generated code, which has no lines. -/
def synthesize (code : Text) : Except LexError (List Token) :=
  (lexFragment code).map fun tokens => tokens.map fun token => { token with line := 0 }

end ConstructorInjection

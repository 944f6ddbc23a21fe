import ConstructorInjection.Lexer.Pattern

/-!
How far comments, strings, heredocs and attributes reach behind their openers. Lengths are counted
in characters, from the end of the opener.
-/

namespace ConstructorInjection

/-- A line comment ends before a line feed or `?>`. -/
def lineCommentExtent : Text → Nat
  | [] => 0
  | '\n' :: _ => 0
  | '?' :: '>' :: _ => 0
  | _ :: rest => lineCommentExtent rest + 1

/-- A block comment ends with the first `*/`. -/
def blockCommentExtent : Text → Option Nat
  | [] => none
  | '*' :: '/' :: _ => some 2
  | _ :: rest => (blockCommentExtent rest).map (· + 1)

/-- A string ends with the first quote that no backslash escapes. -/
def quotedExtent (quote : Char) : Text → Option Nat
  | [] => none
  | ['\\'] => none
  | '\\' :: _ :: rest => (quotedExtent quote rest).map (· + 2)
  | first :: rest => if first = quote then some 1 else (quotedExtent quote rest).map (· + 1)

/-- Where a scan of an attribute's line stands with respect to its strings. -/
inductive QuoteState where
  | outside
  | inside (quote : Char)
  | escaped (quote : Char)

/-- Whether the brackets in the text, `depth` of them open already, close at some point and no
string is left open at the end. -/
def bracketsClose (depth : Nat) (closed : Bool) : QuoteState → Text → Bool
  | .outside, [] => closed
  | _, [] => false
  | .escaped quote, _ :: rest => bracketsClose depth closed (.inside quote) rest
  | .inside quote, first :: rest =>
    if first = '\\' then bracketsClose depth closed (.escaped quote) rest
    else if first = quote then bracketsClose depth closed .outside rest
    else bracketsClose depth closed (.inside quote) rest
  | .outside, first :: rest =>
    if first = '\'' ∨ first = '"' then bracketsClose depth closed (.inside first) rest
    else if first = '[' then bracketsClose (depth + 1) closed .outside rest
    else if first = ']' ∧ depth ≠ 0 then
      bracketsClose (depth - 1) (closed || depth == 1) .outside rest
    else bracketsClose depth closed .outside rest

/-- Whether the text after `#[` makes it an attribute: the bracket closes on the same line, and no
string is left open there. Otherwise `#` starts a line comment. -/
def closesAttribute (rest : Text) : Bool :=
  bracketsClose 1 false .outside (rest.take (lineCommentExtent rest))

def leadingLabel (text : Text) : Text :=
  text.take (labelLength text)

/-- The part of a line, from its start, that closes a heredoc: blanks and the label, with no more of
a label after it. -/
def closingLabelLength? (label line : Text) : Option Nat :=
  let blanks := (line.takeWhile isBlank).length
  match Text.dropStart? label (line.drop blanks) with
  | some rest => if rest.head?.any isLabelPart then none else some (blanks + label.length)
  | none => none

/-- The characters of a heredoc's body and closing label. -/
def heredocBodyExtent (label : Text) (atLineStart : Bool) : Text → Option Nat
  | [] => none
  | first :: rest =>
    match (if atLineStart then closingLabelLength? label (first :: rest) else none) with
    | some length => some length
    | none => (heredocBodyExtent label (first == '\n') rest).map (· + 1)

inductive HeredocExtent where
  | malformed
  | unterminated
  | closed (length : Nat)

/-- What follows `<<<`: blanks, a label that may stand in quotes, a line break, the body and the
closing label. -/
def heredocExtent (rest : Text) : HeredocExtent :=
  let blanks := (rest.takeWhile isBlank).length
  let afterBlanks := rest.drop blanks
  let quote :=
    match afterBlanks with
    | '\'' :: _ => ['\'']
    | '"' :: _ => ['"']
    | _ => []
  let label := leadingLabel (afterBlanks.drop quote.length)
  match label, Text.dropStart? quote (afterBlanks.drop (quote.length + label.length)) with
  | [], _ | _, none => .malformed
  | label, some afterOpener =>
    let lineBreak :=
      match afterOpener with
      | '\r' :: '\n' :: _ => 2
      | '\n' :: _ => 1
      | _ => 0
    if lineBreak = 0 then .malformed
    else
      match heredocBodyExtent label true (afterOpener.drop lineBreak) with
      | some body => .closed (blanks + 2 * quote.length + label.length + lineBreak + body)
      | none => .unterminated

end ConstructorInjection

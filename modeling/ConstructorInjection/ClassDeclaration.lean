import ConstructorInjection.TokenStream

/-!
The first class of a file and the tokens directly in its body. Delimiters alone tell the members of
the class from the code inside them.
-/

namespace ConstructorInjection

/-- A class, by the indices of its keyword and of its braces. -/
structure ClassDeclaration where
  keyword : Nat
  name : Option Text
  /-- The class that it extends, as it is written. -/
  parent : Option Text
  bodyOpen : Nat
  bodyClose : Nat
  deriving DecidableEq

namespace TokenStream

/-- Whether the token before an index makes `class` there something else than a declaration:
`A::class`, `$a->class` and `new class` declare nothing. -/
def refersToClass (stream : TokenStream) (index : Nat) : Bool :=
  ((stream.previousSignificant? index).bind (stream[·]?)).any fun token =>
    token.kind.isMemberOperator || token.isKeyword "new"

def classKeyword? (stream : TokenStream) : Option Nat :=
  (List.range stream.length).find? fun index =>
    stream.isKeyword "class" index && !stream.refersToClass index

/-- The text of the next significant token, when that comes before `limit` and has a kind of the
given ones. -/
def nextTextBefore? (stream : TokenStream) (kinds : TokenKind → Bool) (limit index : Nat) :
    Option Text :=
  (stream.nextSignificant? index).bind fun next =>
    if next < limit then (stream[next]?.filter (kinds ·.kind)).map Token.text else none

def findClass? (stream : TokenStream) : Option ClassDeclaration := do
  let keyword ← stream.classKeyword?
  let bodyOpen ← stream.firstIn? ⟨keyword + 1, stream.length⟩ (·.kind == .openBrace)
  let bodyClose ← stream.matchingClose? bodyOpen
  let extends? := stream.firstIn? ⟨keyword + 1, bodyOpen⟩ (·.isKeyword "extends")
  return {
    keyword
    name := stream.nextTextBefore? (· == .identifier) bodyOpen keyword
    parent := extends?.bind (stream.nextTextBefore? TokenKind.isName bodyOpen)
    bodyOpen
    bodyClose }

/-- The indices of the tokens outside of all delimiters, with the openers of the outermost ones, for
tokens that start at `index` with `depth` delimiters open. -/
def outermostFrom (index depth : Nat) : List Token → List Nat
  | [] => []
  | token :: rest =>
    if token.kind.isOpener then
      let inner := outermostFrom (index + 1) (depth + 1) rest
      if depth = 0 then index :: inner else inner
    else if token.kind.isCloser then outermostFrom (index + 1) (depth - 1) rest
    else if depth = 0 then index :: outermostFrom (index + 1) depth rest
    else outermostFrom (index + 1) depth rest

/-- The indices of the tokens directly between two braces. -/
def members (stream : TokenStream) (bodyOpen bodyClose : Nat) : List Nat :=
  outermostFrom (bodyOpen + 1) 0 (stream.slice ⟨bodyOpen + 1, bodyClose⟩)

/-- The name behind the keyword `function`, where an ampersand may come first. -/
def methodName? (stream : TokenStream) (function : Nat) : Option Nat := do
  let next ← stream.nextSignificant? function
  let name ← if stream.hasKind .ampersand next then stream.nextSignificant? next else some next
  if stream.hasKind .identifier name then some name else none

def methodModifiers : List Text :=
  ["public", "protected", "private", "static", "final", "abstract"]

/-- The first of the modifiers in front of a significant index; the index itself when there is
none. -/
def methodStart (stream : TokenStream) (index : Nat) : Nat :=
  match _found : stream.previousSignificant? index with
  | none => index
  | some previous =>
    if methodModifiers.any (stream.isKeyword · previous) then stream.methodStart previous
    else index
termination_by index
decreasing_by exact stream.lt_of_previousSignificant? _found

end TokenStream

end ConstructorInjection

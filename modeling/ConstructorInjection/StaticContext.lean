import ConstructorInjection.Constructor

/-!
The parts of a class in which there is no `$this`: bodies of static methods, static closures and
static arrow functions.
-/

namespace ConstructorInjection

namespace TokenStream

/-- From a brace through its partner. -/
def bracedFrom? (stream : TokenStream) (opening : Nat) : Option IndexRange :=
  (stream.matchingClose? opening).map fun closing => ⟨opening, closing + 1⟩

def isStaticMethod (stream : TokenStream) (function : Nat) : Bool :=
  (stream.firstIn? ⟨stream.methodStart function, function⟩ (·.isKeyword "static")).isSome

/-- The body of a method of a class that closes at `limit`. -/
def methodBody? (stream : TokenStream) (limit function : Nat) : Option IndexRange := do
  let name ← stream.methodName? function
  let opening ← stream.nextOfKind? .openParen name
  let closing ← stream.matchingClose? opening
  let body ← stream.bodyOpen? (closing + 1) limit
  stream.bracedFrom? body

def staticMethodBodies (stream : TokenStream) (declaration : ClassDeclaration) :
    List IndexRange :=
  (stream.members declaration.bodyOpen declaration.bodyClose).filterMap fun index =>
    if stream.isKeyword "function" index && stream.isStaticMethod index then
      stream.methodBody? declaration.bodyClose index
    else none

/-- How many of the tokens, with `depth` delimiters open, an expression takes: all before a comma, a
semicolon or a closer of its own level. -/
def expressionLength (depth : Nat) : List Token → Nat
  | [] => 0
  | token :: rest =>
    if token.kind.isOpener then expressionLength (depth + 1) rest + 1
    else if token.kind.isCloser then
      match depth with
      | 0 => 0
      | depth + 1 => expressionLength depth rest + 1
    else if depth = 0 ∧ (token.kind = .comma ∨ token.kind = .semicolon) then 0
    else expressionLength depth rest + 1

/-- The static closure or arrow function whose `static` is at an index, in a class that closes at
`limit`. -/
def staticClosure? (stream : TokenStream) (limit start : Nat) : Option IndexRange := do
  guard (stream.isKeyword "static" start)
  let keyword ← stream.nextSignificant? start
  let isArrow := stream.isKeyword "fn" keyword
  guard (isArrow || stream.isKeyword "function" keyword)
  let next ← stream.nextSignificant? keyword
  let opening ← if stream.hasKind .ampersand next then stream.nextSignificant? next else some next
  guard (stream.hasKind .openParen opening)
  let closing ← stream.matchingClose? opening
  if isArrow then
    let expression := expressionLength 0 (stream.slice ⟨closing + 1, limit⟩)
    return ⟨start, if closing + 1 < limit then closing + 1 + expression else limit⟩
  else
    let body ← stream.firstIn? ⟨closing + 1, limit⟩ (·.kind == .openBrace)
    let braced ← stream.bracedFrom? body
    return ⟨start, braced.stop⟩

def staticClosures (stream : TokenStream) (declaration : ClassDeclaration) : List IndexRange :=
  (List.range' (declaration.bodyOpen + 1)
    (declaration.bodyClose - (declaration.bodyOpen + 1))).filterMap
    (stream.staticClosure? declaration.bodyClose)

/-- All static parts of a class, by their start. -/
def staticRanges (stream : TokenStream) (declaration : ClassDeclaration) : List IndexRange :=
  (stream.staticMethodBodies declaration ++ stream.staticClosures declaration).mergeSort
    fun left right => left.start ≤ right.start

end TokenStream

end ConstructorInjection

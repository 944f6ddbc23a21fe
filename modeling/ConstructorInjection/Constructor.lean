import ConstructorInjection.ClassDeclaration

/-!
The constructor of the first class of a file: where it is, or where one would go, and its
parameters.
-/

namespace ConstructorInjection

/-- The name of constructors in PHP. -/
def defaultMarker : Text :=
  "__construct"

structure Parameter where
  /-- The declared type as it is written. -/
  typeName : Option Text
  /-- The name without the dollar sign. -/
  name : Text
  hasDefault : Bool
  isVariadic : Bool
  /-- Declares a property as well. -/
  isPromoted : Bool
  /-- From the first significant token to behind the last one. -/
  range : IndexRange
  deriving DecidableEq

def Parameter.isMandatory (parameter : Parameter) : Bool :=
  !parameter.hasDefault && !parameter.isVariadic

structure ParameterList where
  opening : Nat
  closing : Nat
  deriving DecidableEq

def ParameterList.inner (list : ParameterList) : IndexRange :=
  ⟨list.opening + 1, list.closing⟩

structure Constructor where
  /-- The first modifier, or the keyword `function`. -/
  start : Nat
  parameterList : Option ParameterList
  parameters : List Parameter
  bodyOpen : Option Nat
  bodyClose : Option Nat
  deriving DecidableEq

structure ConstructorSite where
  declaration : ClassDeclaration
  constructor? : Option Constructor
  /-- Further constructors of the class. -/
  duplicates : Nat
  deriving DecidableEq

namespace ConstructorSite

def isBodiless (site : ConstructorSite) : Bool :=
  site.constructor?.any (·.bodyOpen.isNone)

def parameters (site : ConstructorSite) : List Parameter :=
  match site.constructor? with
  | some found => found.parameters
  | none => []

def parameter? (site : ConstructorSite) (name : Text) : Option Parameter :=
  site.parameters.find? (·.name == name)

/-- The constructor's first token; the brace of the class when there is none. -/
def start (site : ConstructorSite) : Nat :=
  match site.constructor? with
  | some found => found.start
  | none => site.declaration.bodyOpen

end ConstructorSite

def promotionModifiers : List Text :=
  ["public", "protected", "private", "readonly"]

/-- What a parameter holds in front of its variable. -/
structure ParameterHead where
  isPromoted : Bool
  isVariadic : Bool
  /-- From the first token of the type to behind the last one. -/
  typeRange : Option IndexRange

def ParameterHead.none : ParameterHead :=
  ⟨false, false, .none⟩

def ParameterHead.withType (head : ParameterHead) (index : Nat) : ParameterHead :=
  { head with typeRange := some ⟨(head.typeRange.map IndexRange.start).getD index, index + 1⟩ }

namespace TokenStream

/-- The variable of a parameter and what stands in front of it, read from `index` up to `stop`. -/
def parameterHead? (stream : TokenStream) (stop : Nat) (head : ParameterHead) (index : Nat) :
    Option (ParameterHead × Nat) :=
  if index < stop then
    match stream[index]? with
    | none => none
    | some token =>
      if token.isTrivia then stream.parameterHead? stop head (index + 1)
      else if token.kind = .attributeStart then
        let close := (stream.matchingClose? index).getD stop
        stream.parameterHead? stop head (max index close + 1)
      else if promotionModifiers.any token.isKeyword then
        stream.parameterHead? stop { head with isPromoted := true } (index + 1)
      else if token.kind = .ellipsis then
        stream.parameterHead? stop { head with isVariadic := true } (index + 1)
      else if token.kind = .ampersand then stream.parameterHead? stop head (index + 1)
      else if token.kind = .variableName then some (head, index)
      else stream.parameterHead? stop (head.withType index) (index + 1)
  else none
termination_by stop - index

/-- The parameter in a range: attributes, modifiers, a type, `&` and `...`, each of which may be
missing, then the variable and perhaps a default. -/
def parameterIn? (stream : TokenStream) (range : IndexRange) : Option Parameter := do
  let (head, variableIndex) ← stream.parameterHead? range.stop ParameterHead.none range.start
  let token ← stream[variableIndex]?
  return {
    typeName := head.typeRange.map stream.textOf
    name := token.text.dropWhile (· == '$')
    hasDefault := (stream.firstIn? ⟨variableIndex + 1, range.stop⟩ (·.kind == .assign)).isSome
    isVariadic := head.isVariadic
    isPromoted := head.isPromoted
    range }

/-- The parameters of a list. Items that are no parameters are passed over. -/
def parametersIn (stream : TokenStream) (list : ParameterList) : List Parameter :=
  (stream.splitTopLevel list.inner).filterMap fun item =>
    stream.parameterIn? (stream.trimTrivia item)

/-- The brace that opens the body of a method whose parameter list closes before `start`; none when
a semicolon comes first. -/
def bodyOpen? (stream : TokenStream) (start limit : Nat) : Option Nat :=
  (stream.firstIn? ⟨start, limit⟩ fun token =>
    token.kind == .openBrace || token.kind == .semicolon).filter (stream.hasKind .openBrace)

/-- The constructor whose `function` keyword and name are at the given indices. -/
def constructorAt (stream : TokenStream) (function name : Nat) : Constructor :=
  let start := stream.methodStart function
  let list? := do
    let opening ← stream.nextOfKind? .openParen name
    let closing ← stream.matchingClose? opening
    return ParameterList.mk opening closing
  match list? with
  | none => ⟨start, none, [], none, none⟩
  | some list =>
    let bodyOpen := stream.bodyOpen? (list.closing + 1) stream.length
    ⟨start, some list, stream.parametersIn list, bodyOpen, bodyOpen.bind stream.matchingClose?⟩

/-- The name of a method that its `function` keyword at `index` declares, when it is the marker in
any case. -/
def markedMethod? (stream : TokenStream) (marker : Text) (index : Nat) : Option (Nat × Nat) := do
  if stream.isKeyword "function" index then
    let name ← stream.methodName? index
    if stream[name]?.any (·.text.equalIgnoringCase marker) then some (index, name) else none
  else none

/-- The first class and its constructor, which is the first method named like the marker. -/
def locate? (stream : TokenStream) (marker : Text) : Option ConstructorSite := do
  let declaration ← stream.findClass?
  let marked := (stream.members declaration.bodyOpen declaration.bodyClose).filterMap
    (stream.markedMethod? marker)
  return {
    declaration
    constructor? := marked.head?.map fun (function, name) => stream.constructorAt function name
    duplicates := marked.length - 1 }

end TokenStream

end ConstructorInjection

import ConstructorInjection.Resolver
import ConstructorInjection.TokenStream

/-!
Legacy static calls `Mage::method(...)` as they stand in the code, and the closed set of shapes that
have a replacement.
-/

namespace ConstructorInjection

inductive CallShape where
  | helper
  | getModel
  | getSingleton
  | getResourceModel
  | getResourceSingleton
  | getStoreConfig
  | getStoreConfigFlag
  | dispatchEvent
  | logException
  | log
  deriving DecidableEq

namespace CallShape

/-- The shapes in the order in which they are tried. -/
def all : List CallShape :=
  [helper, getModel, getSingleton, getResourceModel, getResourceSingleton, getStoreConfig,
   getStoreConfigFlag, dispatchEvent, logException, log]

def method : CallShape → Text
  | helper => "helper"
  | getModel => "getModel"
  | getSingleton => "getSingleton"
  | getResourceModel => "getResourceModel"
  | getResourceSingleton => "getResourceSingleton"
  | getStoreConfig => "getStoreConfig"
  | getStoreConfigFlag => "getStoreConfigFlag"
  | dispatchEvent => "dispatchEvent"
  | logException => "logException"
  | log => "log"

/-- How a shape is called in reports. -/
def name (shape : CallShape) : Text :=
  "Mage::" ++ shape.method

/-- Every shape takes at least one argument. -/
def minArguments (_ : CallShape) : Nat :=
  1

def maxArguments : CallShape → Nat
  | helper | getSingleton | getResourceSingleton | logException | log => 1
  | getModel | getResourceModel | getStoreConfig | getStoreConfigFlag | dispatchEvent => 2

/-- The factory behind a shape whose first argument is an alias. -/
def aliasKind? : CallShape → Option AliasKind
  | helper => some .helper
  | getModel | getSingleton => some .model
  | getResourceModel | getResourceSingleton => some .resourceModel
  | _ => none

def isAliasLookup (shape : CallShape) : Bool :=
  shape.aliasKind?.isSome

/-- Looked up classes are expected to call the constructors of their parents; services of the
framework are not. -/
def requiresParentCall (shape : CallShape) : Bool :=
  shape.isAliasLookup

def accepts (shape : CallShape) (method : Text) (arguments : Nat) : Bool :=
  method.equalIgnoringCase shape.method && shape.minArguments ≤ arguments &&
    arguments ≤ shape.maxArguments

def select? (method : Text) (arguments : Nat) : Option CallShape :=
  all.find? (·.accepts method arguments)

end CallShape

/-- A call, by the indices of its receiver, of its parentheses and of its arguments, which are
without the blanks and comments around them. -/
structure LegacyCall where
  receiver : Nat
  method : Text
  opening : Nat
  closing : Nat
  arguments : List IndexRange
  deriving DecidableEq

namespace LegacyCall

def stop (call : LegacyCall) : Nat :=
  call.closing + 1

def inner (call : LegacyCall) : IndexRange :=
  ⟨call.opening + 1, call.closing⟩

end LegacyCall

namespace TokenStream

/-- Whether the token before an index makes a name there something else than a receiver. -/
def refersToMember (stream : TokenStream) (index : Nat) : Bool :=
  ((stream.previousSignificant? index).bind (stream[·]?)).any fun token =>
    token.kind.isMemberOperator || token.isKeyword "new" || token.isKeyword "function"

def isReceiver (stream : TokenStream) (index : Nat) : Bool :=
  stream[index]?.any (fun token => token.isNamed "Mage" || token.isNamed "\\Mage") &&
    !stream.refersToMember index

def legacyCall? (stream : TokenStream) (index : Nat) : Option LegacyCall :=
  if stream.isReceiver index then do
    let colons ← stream.nextOfKind? .doubleColon index
    let name ← stream.nextOfKind? .identifier colons
    let method ← stream[name]?
    let opening ← stream.nextOfKind? .openParen name
    let closing ← stream.matchingClose? opening
    return {
      receiver := index
      method := method.text
      opening
      closing
      arguments := (stream.splitTopLevel ⟨opening + 1, closing⟩).map stream.trimTrivia }
  else none

/-- The text between quotes that a constant string stands for: a backslash escapes the quote and
itself. -/
def unescape (quote : Char) (inner : Text) : Text :=
  Text.replaceAll ['\\', '\\'] ['\\'] (Text.replaceAll ['\\', quote] [quote] inner)

def unquote? (quote : Char) (text : Text) : Option Text :=
  (Text.dropStart? [quote] text).bind (Text.dropFinish? [quote])

/-- The value of a string literal. In double quotes, a dollar sign makes it depend on variables. -/
def constantText? (literal : Text) : Option Text :=
  match unquote? '\'' literal with
  | some inner => some (unescape '\'' inner)
  | none =>
    match unquote? '"' literal with
    | some inner => if inner.contains '$' then none else some (unescape '"' inner)
    | none => none

def constantArgument? (stream : TokenStream) (argument : IndexRange) : Option Text :=
  if argument.length = 1 then
    (stream[argument.start]?.filter (·.kind == .stringLiteral)).bind fun token =>
      constantText? token.text
  else none

theorem legacyCall?_order {stream : TokenStream} {index : Nat} {call : LegacyCall}
    (result : stream.legacyCall? index = some call) :
    index < call.opening ∧ ∀ argument ∈ call.arguments, call.opening < argument.start := by
  rw [legacyCall?] at result
  split at result
  case isFalse => contradiction
  simp only [Option.bind_eq_bind, Option.bind_eq_some_iff, Option.pure_def,
    Option.some.injEq] at result
  obtain ⟨colons, colonsResult, name, nameResult, _, _, opening, openingResult, closing, _,
    rfl⟩ := result
  refine ⟨?_, ?_⟩
  · have first := lt_of_nextOfKind? colonsResult
    have second := lt_of_nextOfKind? nameResult
    have third := lt_of_nextOfKind? openingResult
    simp only
    omega
  · intro argument member
    obtain ⟨item, itemMember, rfl⟩ := List.mem_map.mp member
    have lower := start_le_of_mem_splitTopLevel itemMember
    have trimmed := start_le_trimTrivia stream item
    simp only at lower ⊢
    omega

end TokenStream

end ConstructorInjection

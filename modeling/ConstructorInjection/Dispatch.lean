import ConstructorInjection.LegacyCall
import ConstructorInjection.Lexer

/-!
Legacy calls and what takes their place. The arguments that a replacement copies are converted
first, so that a call inside another call's arguments is converted with it.
-/

namespace ConstructorInjection

def scopeConfig : Dependency :=
  ⟨"\\Magento\\Framework\\App\\Config\\ScopeConfigInterface", "scopeConfig"⟩

def eventManager : Dependency :=
  ⟨"\\Magento\\Framework\\Event\\ManagerInterface", "eventManager"⟩

def logger : Dependency :=
  ⟨"\\Psr\\Log\\LoggerInterface", "logger"⟩

def storeScope : Text :=
  "\\Magento\\Store\\Model\\ScopeInterface::SCOPE_STORE"

/-- The factory that creates objects of a dependency's class. -/
def Dependency.factory (dependency : Dependency) : Dependency :=
  ⟨dependency.className ++ "Factory", dependency.variableName ++ "Factory"⟩

namespace CallShape

/-- What a replacement accesses. Singletons are injected themselves, models through factories. -/
def dependency? (shape : CallShape) (resolver : Resolver) (stream : TokenStream)
    (call : LegacyCall) : Option Dependency :=
  let lookup (kind : AliasKind) : Option Dependency := do
    let first ← call.arguments.head?
    let aliasText ← stream.constantArgument? first
    resolver.resolve? kind aliasText
  match shape with
  | helper => lookup .helper
  | getSingleton => lookup .model
  | getResourceSingleton => lookup .resourceModel
  | getModel => (lookup .model).map Dependency.factory
  | getResourceModel => (lookup .resourceModel).map Dependency.factory
  | getStoreConfig | getStoreConfigFlag => some scopeConfig
  | dispatchEvent => some eventManager
  | logException | log => some logger

/-- The ranges of a call that its replacement copies. -/
def copied (shape : CallShape) (call : LegacyCall) : List IndexRange :=
  match shape with
  | helper | getSingleton | getResourceSingleton => []
  | getModel | getResourceModel => (call.arguments.drop 1).take 1
  | getStoreConfig | getStoreConfigFlag => call.arguments.take 2
  | dispatchEvent | logException | log => [call.inner]

/-- The text that takes the place of a call, around the copied ranges. -/
def replacement (shape : CallShape) (variableName : Text) (copies : List Text) : Text :=
  let object : Text := "$this->" ++ variableName
  let forward (method : Text) : Text :=
    object ++ "->" ++ method ++ "(" ++ copies.headD [] ++ ")"
  let configuration (method : Text) : Text :=
    object ++ "->" ++ method ++ "(" ++ copies.headD [] ++ ", " ++ storeScope ++
      (copies.drop 1).flatMap (fun copy => (", " : Text) ++ copy) ++ ")"
  match shape with
  | helper | getSingleton | getResourceSingleton => object
  | getModel | getResourceModel =>
    match copies with
    | [] => object ++ "->create()"
    | data :: _ => object ++ "->create(['data' => " ++ data ++ "])"
  | getStoreConfig => configuration "getValue"
  | getStoreConfigFlag => configuration "isSetFlag"
  | dispatchEvent => forward "dispatch"
  | logException => forward "critical"
  | log => forward "debug"

end CallShape

/-- A call that is converted: the tokens from `start` to before `stop` give way to others. -/
structure CallSite where
  shape : CallShape
  start : Nat
  stop : Nat
  dependency : Dependency
  replacement : List Token
  /-- The calls that are converted in its arguments. -/
  nested : List CallSite

namespace CallSite

def range (site : CallSite) : IndexRange :=
  ⟨site.start, site.stop⟩

def replacementText (site : CallSite) : Text :=
  textOf site.replacement

mutual
/-- The dependency of a call, then those of the calls in it, the outer ones first. -/
def dependencies : CallSite → List Dependency
  | ⟨_, _, _, dependency, _, nested⟩ => dependency :: dependenciesOfAll nested

def dependenciesOfAll : List CallSite → List Dependency
  | [] => []
  | site :: rest => site.dependencies ++ dependenciesOfAll rest
end

end CallSite

structure ConvertedText where
  text : Text
  sites : List CallSite

theorem CallShape.start_of_mem_copied {stream : TokenStream} {index : Nat} {call : LegacyCall}
    {shape : CallShape} {range : IndexRange} (result : stream.legacyCall? index = some call)
    (member : range ∈ shape.copied call) : index < range.start := by
  obtain ⟨order, arguments⟩ := TokenStream.legacyCall?_order result
  cases shape <;> simp only [copied, List.not_mem_nil] at member
  case getModel | getResourceModel =>
    have bound := arguments range (List.mem_of_mem_drop (List.mem_of_mem_take member))
    omega
  case getStoreConfig | getStoreConfigFlag =>
    have bound := arguments range (List.mem_of_mem_take member)
    omega
  case dispatchEvent | logException | log =>
    rw [List.mem_singleton.mp member]
    simp only [LegacyCall.inner]
    omega

theorem TokenStream.index_lt_of_legacyCall? {stream : TokenStream} {index : Nat}
    {call : LegacyCall} (result : stream.legacyCall? index = some call) :
    index < stream.length := by
  rw [legacyCall?] at result
  split at result
  next receiver =>
    by_cases inside : index < stream.length
    · exact inside
    · simp [isReceiver, List.getElem?_eq_none (Nat.le_of_not_lt inside)] at receiver
  next => contradiction

mutual
/-- The conversion of the legacy call at an index, if there is one that has a replacement. -/
def dispatch? (resolver : Resolver) (stream : TokenStream) (index : Nat) : Option CallSite :=
  match _found : stream.legacyCall? index with
  | none => none
  | some call =>
    match CallShape.select? call.method call.arguments.length with
    | none => none
    | some shape =>
      match shape.dependency? resolver stream call with
      | none => none
      | some dependency =>
        let copies := (shape.copied call).attach.map fun ⟨range, _⟩ =>
          convertSpan resolver stream range.start range.stop
        let code := shape.replacement dependency.variableName (copies.map ConvertedText.text)
        match synthesize code with
        | .error _ => none
        | .ok tokens =>
          some ⟨shape, index, call.stop, dependency, tokens, copies.flatMap ConvertedText.sites⟩
termination_by 2 * (stream.length - index)
decreasing_by
  have later := CallShape.start_of_mem_copied _found ‹_›
  have inside := TokenStream.index_lt_of_legacyCall? _found
  omega

/-- The text from `start` to before `stop` with the calls in it converted. A call that ends behind
`stop` stays. -/
def convertSpan (resolver : Resolver) (stream : TokenStream) (start stop : Nat) : ConvertedText :=
  if inside : start < stop ∧ start < stream.length then
    match (dispatch? resolver stream start).filter (·.stop ≤ stop) with
    | some site =>
      let rest := convertSpan resolver stream (max (start + 1) site.stop) stop
      ⟨site.replacementText ++ rest.text, site :: rest.sites⟩
    | none =>
      let rest := convertSpan resolver stream (start + 1) stop
      ⟨stream[start].text ++ rest.text, rest.sites⟩
  else ⟨[], []⟩
termination_by 2 * (stream.length - start) + 1
decreasing_by all_goals omega
end

end ConstructorInjection

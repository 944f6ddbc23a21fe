import ConstructorInjection.Constructor
import ConstructorInjection.Dependency
import ConstructorInjection.Edit
import ConstructorInjection.LexError

/-!
What an injection has to add to a class: parameters, assignments and properties for those
dependencies that the class does not hold yet, and the reasons to refuse it.
-/

namespace ConstructorInjection

inductive InjectionError where
  /-- A name that stands for another type already. -/
  | variableCollision (name existingType requestedType : Text)
  /-- A dependency that cannot be written as a parameter. -/
  | invalidDependency (dependency : Dependency)
  /-- Generated code that has no tokens. -/
  | synthesis (error : LexError)
  | conflict (cause : EditConflict)
  deriving DecidableEq

def InjectionError.message : InjectionError → Text
  | variableCollision name existingType requestedType =>
    "`$" ++ name ++ "` is already a `" ++ existingType ++
      "` parameter, cannot inject it as `" ++ requestedType ++ "`"
  | invalidDependency dependency =>
    "invalid dependency `" ++ dependency.className ++ " $" ++ dependency.variableName ++ "`"
  | synthesis error => "generated code does not lex: " ++ error.message
  | conflict cause => cause.message

structure InjectionOptions where
  /-- The name of the constructor. -/
  marker : Text
  /-- Whether injected dependencies get a property of their own. -/
  declareProperties : Bool
  indent : Text
  deriving DecidableEq

def InjectionOptions.default : InjectionOptions :=
  ⟨defaultMarker, true, "    "⟩

namespace Dependency

def hasValidVariable (dependency : Dependency) : Bool :=
  dependency.variableName.head?.any (fun c => c == '_' || Unicode.isAlphabetic c) &&
    dependency.variableName.all (fun c => c == '_' || Unicode.isAlphanumeric c)

/-- A type is a class name, perhaps after a question mark, and has a letter in it. -/
def hasValidType (dependency : Dependency) : Bool :=
  let typeName := (Text.dropStart? ['?'] dependency.className).getD dependency.className
  typeName.any Unicode.isAlphabetic &&
    typeName.all (fun c => c == '_' || c == '\\' || Unicode.isAlphanumeric c)

def isValid (dependency : Dependency) : Bool :=
  dependency.hasValidVariable && dependency.hasValidType

end Dependency

/-- Types are equal up to backslashes in front and the case of ASCII letters. -/
def sameType (left right : Text) : Bool :=
  Text.equalIgnoringCase (left.dropWhile (· == '\\')) (right.dropWhile (· == '\\'))

/-- The dependencies of a request, each name once, behind those that are `seen` already. -/
def distinctFrom (seen : List Dependency) :
    List Dependency → Except InjectionError (List Dependency)
  | [] => .ok seen
  | dependency :: rest =>
    if !dependency.isValid then .error (.invalidDependency dependency)
    else
      match seen.find? (·.variableName == dependency.variableName) with
      | none => distinctFrom (seen ++ [dependency]) rest
      | some earlier =>
        if sameType earlier.className dependency.className then distinctFrom seen rest
        else
          .error (.variableCollision dependency.variableName earlier.className
            dependency.className)

def distinctDependencies (request : List Dependency) :
    Except InjectionError (List Dependency) :=
  distinctFrom [] request

namespace TokenStream

/-- Whether `$this->name =` starts at an index. -/
def isAssignment (stream : TokenStream) (name : Text) (index : Nat) : Bool :=
  stream[index]?.any (fun token => token.kind == .variableName && token.text == ("$this" : Text)) &&
    ((stream.nextOfKind? .objectOperator index).bind (stream.nextOfKind? .identifier)).any
      fun member =>
        stream[member]?.any (·.text == name) && (stream.nextOfKind? .assign member).isSome

def assignsProperty (stream : TokenStream) (opening closing : Nat) (name : Text) : Bool :=
  (List.range' (opening + 1) (closing - (opening + 1))).any (stream.isAssignment name)

def declaresProperty (stream : TokenStream) (declaration : ClassDeclaration) (name : Text) : Bool :=
  (stream.members declaration.bodyOpen declaration.bodyClose).any fun index =>
    stream[index]?.any fun token =>
      token.kind == .variableName && Text.dropStart? ['$'] token.text == some name

end TokenStream

structure InjectionPlan where
  parameters : List Dependency
  assignments : List Dependency
  properties : List Dependency
  /-- Whether a new constructor calls the one of the parent. -/
  parentCall : Bool
  deriving DecidableEq

def InjectionPlan.isEmpty (plan : InjectionPlan) : Bool :=
  plan.parameters.isEmpty && plan.assignments.isEmpty && plan.properties.isEmpty &&
    !plan.parentCall

namespace ConstructorSite

def assigns (site : ConstructorSite) (stream : TokenStream) (name : Text) : Bool :=
  match site.constructor?.bind (·.bodyOpen), site.constructor?.bind (·.bodyClose) with
  | some opening, some closing => stream.assignsProperty opening closing name
  | _, _ => false

/-- The plan extended by one dependency. An existing parameter of the name must have its type, and
lacks nothing when it is promoted or assigned. -/
def planOne (site : ConstructorSite) (stream : TokenStream) (options : InjectionOptions)
    (plan : InjectionPlan) (dependency : Dependency) : Except InjectionError InjectionPlan := do
  let assigned := site.assigns stream dependency.variableName
  let newProperties :=
    if options.declareProperties &&
        !stream.declaresProperty site.declaration dependency.variableName then [dependency]
    else []
  match site.parameter? dependency.variableName with
  | some existing =>
    if !existing.typeName.any (sameType · dependency.className) then
      throw (.variableCollision dependency.variableName (existing.typeName.getD "untyped")
        dependency.className)
    if existing.isPromoted || assigned then return plan
    else
      return { plan with
        assignments := plan.assignments ++ [dependency]
        properties := plan.properties ++ newProperties }
  | none =>
    return { plan with
      parameters := plan.parameters ++ [dependency]
      assignments := plan.assignments ++ (if assigned then [] else [dependency])
      properties := plan.properties ++ newProperties }

/-- What the class lacks. A constructor without a body takes no assignments, and only a new
constructor calls the one of the parent. -/
def plan (site : ConstructorSite) (stream : TokenStream) (options : InjectionOptions)
    (dependencies : List Dependency) : Except InjectionError InjectionPlan := do
  let plan ← dependencies.foldlM (site.planOne stream options) ⟨[], [], [], false⟩
  return { plan with
    assignments := if site.isBodiless then [] else plan.assignments
    parentCall := site.constructor?.isNone && site.declaration.parent.isSome &&
      !plan.parameters.isEmpty }

end ConstructorSite

end ConstructorInjection

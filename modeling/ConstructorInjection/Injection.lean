import ConstructorInjection.Injection.Layout
import ConstructorInjection.Injection.Plan
import ConstructorInjection.Lexer

/-!
Injection of dependencies into a class. The code that a plan asks for is written in the layout of
the code around it and put in place by one batch of edits.
-/

namespace ConstructorInjection

namespace Dependency

def parameterText (dependency : Dependency) : Text :=
  dependency.className ++ " $" ++ dependency.variableName

def assignmentText (dependency : Dependency) : Text :=
  "$this->" ++ dependency.variableName ++ " = $" ++ dependency.variableName ++ ";"

def propertyText (dependency : Dependency) (indent lineEnding : Text) : Text :=
  indent ++ "/** @var " ++ dependency.className ++ " */" ++ lineEnding ++
    indent ++ "protected $" ++ dependency.variableName ++ ";"

end Dependency

def generate (code : Text) : Except InjectionError (List Token) :=
  (synthesize code).mapError .synthesis

/-- Every item but the last with a comma behind it. -/
def withCommas : List Text → List Text
  | [] => []
  | [last] => [last]
  | first :: rest => (first ++ ",") :: withCommas rest

def constructorText (plan : InjectionPlan) (options : InjectionOptions) (lineEnding : Text) :
    Text :=
  let inner := options.indent ++ options.indent
  let opening := options.indent ++ "public function " ++ options.marker ++ "("
  let parameters := (withCommas (plan.parameters.map Dependency.parameterText)).map (inner ++ ·)
  let parentCall :=
    if plan.parentCall then [inner ++ "parent::" ++ options.marker ++ "();"] else []
  let assignments := plan.assignments.map fun dependency => inner ++ dependency.assignmentText
  Text.joinWith lineEnding
    ([opening] ++ parameters ++ [options.indent ++ [')', ' ', '\x7b']] ++ parentCall ++
      assignments ++ [options.indent ++ ['\x7d']])

/-- Blocks of code at the head of a class body, each with a line break before and behind it. In a
body of blank lines the last line break is there already. -/
def classHeadText (stream : TokenStream) (declaration : ClassDeclaration) (blocks : List Text)
    (lineEnding : Text) : Text :=
  let text := blocks.flatMap fun block => lineEnding ++ block ++ lineEnding
  let isBlank := (stream.firstContent? declaration.bodyOpen declaration.bodyClose).isNone
  if isBlank && stream.spansLines declaration.bodyOpen declaration.bodyClose then
    text.take (text.length - lineEnding.length)
  else text

def headEdit (stream : TokenStream) (declaration : ClassDeclaration) (blocks : List Text)
    (lineEnding : Text) : Except InjectionError Edit := do
  let tokens ← generate (classHeadText stream declaration blocks lineEnding)
  return Edit.insertion (declaration.bodyOpen + 1) tokens

/-- The last mandatory parameter and the one behind it. -/
def lastMandatory? : List Parameter → Option (Parameter × Option Parameter)
  | [] => none
  | first :: rest =>
    match lastMandatory? rest with
    | some found => some found
    | none => if first.isMandatory then some (first, rest.head?) else none

/-- The insertion of parameters behind the last mandatory one. Between two parameters on one line
stands a blank, between others a line break. -/
def parameterEdit (stream : TokenStream) (site : Constructor) (new : List Dependency)
    (indent : Text) (options : InjectionOptions) (lineEnding : Text) :
    Except InjectionError (List Edit) := do
  match site.parameterList with
  | none => return []
  | some list =>
    let texts := new.map Dependency.parameterText
    match new, site.parameters with
    | [], _ => return []
    | _, [] =>
      let lines := (withCommas texts).flatMap fun text =>
        lineEnding ++ indent ++ options.indent ++ text
      let tokens ← generate (lines ++ lineEnding ++ indent)
      let kept := (stream.lastContent? list.opening list.closing).getD list.opening
      return [⟨⟨kept + 1, list.closing⟩, tokens⟩]
    | _, first :: others =>
      let separator :=
        if stream.spansLines list.opening list.closing then
          let found := (first :: others).reverse.findSome? fun parameter =>
            stream.indentBefore? parameter.range.start
          "," ++ lineEnding ++ found.getD (indent ++ options.indent)
        else ", "
      let joined := Text.joinWith separator texts
      match lastMandatory? (first :: others) with
      | some (last, none) =>
        return [Edit.insertion last.range.stop (← generate (separator ++ joined))]
      | some (_, some next) =>
        return [Edit.insertion next.range.start (← generate (joined ++ separator))]
      | none => return [Edit.insertion first.range.start (← generate (joined ++ separator))]

/-- The insertion of assignments behind the last statement of the body. -/
def assignmentEdit (stream : TokenStream) (site : Constructor) (new : List Dependency)
    (indent : Text) (options : InjectionOptions) (lineEnding : Text) :
    Except InjectionError (List Edit) := do
  match new, site.bodyOpen, site.bodyClose with
  | _ :: _, some opening, some closing =>
    let multiLine := stream.spansLines opening closing
    let statementIndent := indent ++ options.indent
    let statements (separator : Text) : Text :=
      new.flatMap fun dependency => separator ++ dependency.assignmentText
    match stream.lastContent? opening closing with
    | none =>
      let lines := statements (lineEnding ++ statementIndent)
      if multiLine then return [Edit.insertion (opening + 1) (← generate lines)]
      else
        return [⟨⟨opening + 1, closing⟩, ← generate (lines ++ lineEnding ++ indent)⟩]
    | some last =>
      let separator :=
        if multiLine then
          let first := (stream.firstContent? opening closing).getD last
          lineEnding ++ (stream.indentBefore? first).getD statementIndent
        else (stream.inlineSeparator? opening last).getD " "
      return [Edit.insertion (last + 1) (← generate (statements separator))]
  | _, _, _ => return []

def planEdits (stream : TokenStream) (site : ConstructorSite) (plan : InjectionPlan)
    (options : InjectionOptions) : Except InjectionError (List Edit) := do
  let lineEnding := stream.lineEnding
  let properties (indent : Text) : List Text :=
    plan.properties.map (·.propertyText indent lineEnding)
  match site.constructor? with
  | some existing =>
    let indent := (stream.indentBefore? existing.start).getD options.indent
    let head ←
      if plan.properties.isEmpty then pure []
      else do pure [← headEdit stream site.declaration (properties indent) lineEnding]
    let parameters ←
      parameterEdit stream existing plan.parameters indent options lineEnding
    let assignments ←
      assignmentEdit stream existing plan.assignments indent options lineEnding
    return head ++ parameters ++ assignments
  | none =>
    let blocks := properties options.indent ++ [constructorText plan options lineEnding]
    return [← headEdit stream site.declaration blocks lineEnding]

structure Injected where
  stream : TokenStream
  /-- The dependencies that became parameters. -/
  added : List Dependency

/-- Injects dependencies into a class that has been located in the same stream. -/
def inject (stream : TokenStream) (site : ConstructorSite) (request : List Dependency)
    (options : InjectionOptions) : Except InjectionError Injected := do
  let dependencies ← distinctDependencies request
  let plan ← site.plan stream options dependencies
  if plan.isEmpty then return ⟨stream, []⟩
  else
    let edits ← planEdits stream site plan options
    let edited ← (Edit.applyAll edits stream).mapError .conflict
    return ⟨edited, plan.parameters⟩

end ConstructorInjection

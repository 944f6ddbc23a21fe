import ConstructorInjection.Unicode

/-!
A class to inject, the variable that it is injected as, and the names of such variables.
-/

namespace ConstructorInjection

/-- A class, fully qualified, and the name of its parameter and property, without the dollar
sign. -/
structure Dependency where
  className : Text
  variableName : Text
  deriving DecidableEq

/-- How a variable is named after its class. -/
inductive NamingScheme where
  /-- After the module and what follows the layer: `\Magento\Tax\Helper\Data` is `taxHelper`. -/
  | moduleQualified
  /-- After the last segment: `\Magento\Tax\Helper\Data` is `data`. -/
  | trailingSegment
  deriving DecidableEq

namespace NamingScheme

/-- The segments of `\A\B\C` or of `A_B_C`. -/
def segments (className : Text) : List Text :=
  let separator := if className.contains '\\' then '\\' else '_'
  (Text.splitAtEach separator className).filter (· ≠ [])

/-- A variable name out of any text: other characters are dropped, a digit does not come first, and
the name is not empty. -/
def sanitize (name : Text) : Text :=
  match name.filter (fun c => Unicode.isAlphanumeric c || c == '_') with
  | [] => "dependency"
  | first :: rest => if first.isDigit then '_' :: first :: rest else first :: rest

def trailingName (className : Text) : Text :=
  let last := (segments className).getLastD "dependency"
  let stem :=
    match Text.dropFinish? "Interface" last with
    | some (first :: rest) => first :: rest
    | _ => last
  sanitize (Unicode.uncapitalize stem)

/-- What the segments behind the module add to the name: the layer and the rest of the class. -/
def layerName (layer : Text) (rest : List Text) : Text :=
  if layer = "Helper" then
    (if rest.getLast? = some "Data" then rest.dropLast else rest).flatten ++ "Helper"
  else if layer = "Model" then
    match rest with
    | first :: second :: tail =>
      if first = "ResourceModel" then
        let kept := second :: tail
        if kept.getLast? = some "Collection" then kept.flatten else kept.flatten ++ "Resource"
      else rest.flatten
    | _ => rest.flatten
  else layer ++ rest.flatten

def moduleName (className : Text) : Text :=
  match segments className with
  | _ :: module :: layer :: first :: rest =>
    let name := Unicode.uncapitalize module ++ layerName layer (first :: rest)
    sanitize ((Text.dropFinish? "Interface" name).getD name)
  | _ => trailingName className

/-- The name of the variable that holds an object of the class. -/
def variableName : NamingScheme → Text → Text
  | moduleQualified => moduleName
  | trailingSegment => trailingName

end NamingScheme

end ConstructorInjection
